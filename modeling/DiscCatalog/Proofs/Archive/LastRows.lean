import Mathlib.Data.List.Induction
import DiscCatalog.Proofs.Archive.Delimited
import DiscCatalog.Proofs.Archive.Reopening
import DiscCatalog.Proofs.Host.Calm
import DiscCatalog.Proofs.Store.History

namespace DiscCatalog

namespace Table

variable {ρ κ : Type} [LT κ] [Keyed ρ κ] [DecidableLT κ] [KeyOrder κ] [DecidableEq κ]

/-- Of rows with one key that are put in one after the other the last one stays. -/
theorem find?_ofRows (k : κ) (rows : List ρ) : (ofRows rows).find? k = (rows.filter (key · = k)).getLast? := by
  induction rows using List.reverseRecOn with
  | nil => rfl
  | append_singleton rows r ih =>
    rw [ofRows, List.foldl_append, List.foldl_cons, List.foldl_nil, ← ofRows, find?_insert, ih, List.filter_append]
    by_cases same : key r = k <;> simp [same]

end Table

namespace Host

variable {h : Host} {path directory : String} {place q : Location} {i links : Nat}

theorem content?_of_nodeOf? {n : Nat} (at? : h.nodeOf? q = some n) : h.content? q = h.contentOf? n := by
  rw [content?, node?_of_nodeOf? at?, contentOf?]

theorem content?_close (noPipe : ∀ b, h.content? q ≠ some (.pipe b)) : (h.close i).content? q = h.content? q := by
  cases held : h.handle? i with
  | none => rw [close_of_none held]
  | some x =>
    obtain same | ⟨-, ⟨b, pipe⟩, same⟩ := close_eq held
    · rw [same]
      rfl
    · have names : (h.close i).nodeOf? q = h.nodeOf? q := by rw [nodeOf?, names_close, nodeOf?]
      cases at? : h.nodeOf? q with
      | none =>
        rw [content?, content?, node?, node?, names, at?]
        rfl
      | some n =>
        rw [content?_of_nodeOf? (names.trans at?), content?_of_nodeOf? at?, same]
        refine contentOf?_setContent_ne (fun own => noPipe b ?_) _
        rw [content?_of_nodeOf? at?, own, pipe]

theorem makeDirectory_there (some : path ≠ "") (noNul : '\x00' ∉ path.toList)
    (entered : h.enter path = .ok (place, links)) (there : (h.content? place).isSome) :
    ∃ e, e ≠ .noEntry ∧ h.makeDirectory path = (.error e, h) := by
  have kept : trimSlashes path ≠ "" ∧ '\x00' ∉ (trimSlashes path).toList := by
    obtain same | ⟨n, whole, kept⟩ := trimSlashes_eq path
    · rw [same]
      exact ⟨some, noNul⟩
    · refine ⟨kept, fun nul => noNul ?_⟩
      rw [whole, String.toList_append]
      exact List.mem_append_left _ nul
  -- A path that is too long is refused before it is seen what is there.
  by_cases short : (trimSlashes path).utf8ByteSize ≤ maxPath
  · obtain ⟨p, walked, taken, -⟩ :=
      walk_of_enter_directory ⟨kept.1, kept.2, short⟩ (enter_trimSlashes.trans entered) there false
    refine ⟨.fileExists, by decide, ?_⟩
    rw [makeDirectory, make, walked]
    dsimp only
    rw [if_pos (nodeOf?_isSome_of_content? taken)]
  · refine ⟨.nameTooLong, by decide, ?_⟩
    rw [makeDirectory, make, walk, if_neg kept.1, if_neg kept.2, if_pos (Nat.not_le.1 short)]

theorem makeDirectories_there (noNul : '\x00' ∉ path.toList) (entered : h.enter path = .ok (place, links))
    (there : (h.content? place).isSome) : (h.makeDirectories path).2 = h := by
  rw [makeDirectories, lineage]
  by_cases empty : path = ""
  · rw [empty, makeDirectoriesAlong]
  · obtain ⟨e, other, made⟩ := makeDirectory_there empty noNul entered there
    rw [makeDirectoriesAlong, made]
    · dsimp only
      rw [if_pos other]
      split <;> rfl
    · exact empty

/-- Opening a file for writing, as it is, fails and does nothing, or takes a handle on it, or makes it first. -/
theorem createFile_cases (path : String) (h : Host) :
    (∃ e, h.createFile path false = (.error e, h)) ∨
      (∃ place x, h.walk true path = .ok place ∧ x.node < h.nodes.length ∧
        h.createFile path false = (.ok h.handles.length, h.adding (some x))) ∨
      ∃ place x, h.walk true path = .ok place ∧ h.nodeOf? place = none ∧ x.node = h.nodes.length ∧
        h.createFile path false =
          (.ok h.handles.length, (h.create place ⟨.file [], grant 0o666⟩).adding (some x)) := by
  cases walked : h.walk true path with
  | error e => exact .inl ⟨e, createFile_unreached walked⟩
  | ok place =>
    cases at? : h.nodeOf? place with
    | none =>
      cases may : h.mayChange place with
      | false => exact .inl ⟨_, createFile_barred walked at? may⟩
      | true =>
        exact .inr (.inr ⟨place, { node := h.nodes.length, access := .write }, rfl, at?, rfl,
          createFile_free walked at? may false⟩)
    | some number =>
      obtain ⟨e, refused⟩ | ⟨p, number, node, found, -, opened⟩ := openPath_cases path .write true h
      · exact .inl ⟨e, createFile_refused walked at? refused⟩
      · exact .inr (.inl ⟨place, { node := number, access := .write, blocking := true }, rfl,
          (List.getElem?_eq_some_iff.1 (walk_of_find found).2.2).1, createFile_kept walked at? opened⟩)

end Host

namespace Archive

open Host

/-- A directory that is there, in which what goes by the name of a table file is a file, whatever it holds and whoever
may read it, and what goes by the name of the lock file is no link. -/
structure Premises (h : Host) (directory : String) (place : Location) : Prop where
  sound : h.Sound
  way : ∃ links, h.enter directory = .ok (place, links)
  home : h.content? place = some .directory
  table : ∀ file, IsTable file → ∀ content, h.content? (place ++ [file]) = some content → ∃ bytes, content = .file bytes
  lock : ∀ target, h.content? (place ++ [lockFile]) ≠ some (.link target)

/-- A host later on, where all that could be reached is where it was and the table files hold what they held. -/
structure Keeps (place : Location) (h h' : Host) : Prop extends Later h h' where
  calm : Calm h h'
  same : ∀ file, IsTable file → h'.content? (place ++ [file]) = h.content? (place ++ [file])

variable {h h' h'' : Host} {directory file : String} {place : Location} {owner lock : Nat}

namespace Keeps

theorem refl (sound : h.Sound) : Keeps place h h := ⟨.refl sound, .refl h, fun _ _ => rfl⟩

theorem trans (first : Keeps place h h') (second : Keeps place h' h'') : Keeps place h h'' :=
  ⟨first.toLater.trans second.toLater, first.calm.trans second.calm,
    fun file named => (second.same file named).trans (first.same file named)⟩

end Keeps

namespace Premises

theorem keeps (premises : Premises h directory place) (keeps : Keeps place h h') : Premises h' directory place := by
  obtain ⟨links, entered⟩ := premises.way
  refine ⟨keeps.sound, ⟨links, keeps.calm.enter entered⟩, ?_, ?_, keeps.toLater.noLink premises.lock⟩
  · obtain ⟨node, there, content⟩ := Option.map_eq_some_iff.1 premises.home
    rw [content?, keeps.calm.node? there (.inl content), Option.map_some, content]
  · intro file named content found
    rw [keeps.same file named] at found
    exact premises.table file named content found

theorem noLink (premises : Premises h directory place) (named : IsTable file) (target : String) :
    h.content? (place ++ [file]) ≠ some (.link target) := by
  intro link
  obtain ⟨bytes, same⟩ := premises.table file named _ link
  cases same

theorem adding (premises : Premises h directory place) {x : Handle} (there : x.node < h.nodes.length) :
    Keeps place h (h.adding (some x)) :=
  ⟨later_adding premises.sound there, calm_of_handles _ h, fun _ _ => rfl⟩

theorem setHandle (premises : Premises h directory place) {x y : Handle} (held : h.handle? lock = some y)
    (node : x.node = y.node) (access : x.access = y.access) : Keeps place h (h.setHandle lock x) :=
  ⟨later_setHandle premises.sound held node access, calm_of_handles _ h, fun _ _ => rfl⟩

theorem close (premises : Premises h directory place) (lock : Nat) : Keeps place h (h.close lock) := by
  refine ⟨later_close premises.sound lock, calm_close lock h, fun file named => content?_close fun b pipe => ?_⟩
  obtain ⟨bytes, same⟩ := premises.table file named _ pipe
  cases same

theorem create (premises : Premises h directory place) (free : h.nodeOf? (place ++ [lockFile]) = none) :
    Keeps place h (h.create (place ++ [lockFile]) ⟨.file [], grant 0o666⟩) := by
  refine ⟨later_create premises.sound free (by simp) (by simp), calm_create free _, fun file named => ?_⟩
  have other : place ++ [file] ≠ place ++ [lockFile] := fun same => named.ne_lockFile (by simpa using same)
  rw [content?, node?_create premises.sound free, if_neg other, content?]

theorem walk_lockFile (premises : Premises h directory place) {q : Location}
    (walked : h.walk true (joinPath directory lockFile) = .ok q) : q = place ++ [lockFile] := by
  obtain ⟨links, entered⟩ := premises.way
  obtain ⟨walkable, short, -⟩ := enter_of_walk plainName_lockFile walked
  have straight := walk_of_enter entered plainName_lockFile walkable short true fun _ => premises.lock
  exact Except.ok.inj (walked.symm.trans straight)

theorem openLock (premises : Premises h directory place) :
    Keeps place h (Archive.openLock directory h).2 ∧
      ((Archive.openLock directory h).1.isOk → Walkable (joinPath directory lockFile)) := by
  obtain ⟨links, entered⟩ := premises.way
  unfold Archive.openLock
  split
  · exact ⟨.refl premises.sound, fun ok => by cases ok⟩
  · next noNul =>
    have made := makeDirectories_there noNul entered (by rw [premises.home]; rfl)
    cases outcome : h.makeDirectories directory with
    | mk first h₀ =>
      rw [outcome] at made
      cases made
      cases first with
      | error e => exact ⟨.refl premises.sound, fun ok => by cases ok⟩
      | ok =>
        dsimp only
        obtain ⟨e, same⟩ | ⟨q, x, walked, there, same⟩ | ⟨q, x, walked, free, there, same⟩ :=
          createFile_cases (joinPath directory lockFile) h₀
        · rw [same]
          exact ⟨.refl premises.sound, fun ok => by cases ok⟩
        · rw [same]
          exact ⟨premises.adding there, fun _ => walkable_of_walk walked⟩
        · cases premises.walk_lockFile walked
          have created := premises.create free
          rw [same]
          refine ⟨created.trans ((premises.keeps created).adding ?_), fun _ => walkable_of_walk walked⟩
          rw [there]
          simp [Host.create]

theorem takeLock (premises : Premises h directory place) (lock : Nat) :
    Keeps place h (Archive.takeLock directory lock h).2 := by
  unfold Archive.takeLock tryLock
  cases held : h.handle? lock with
  | none => exact premises.close lock
  | some x =>
    cases busy : (h.handlesOf x.node).any (·.locked) with
    | true =>
      simp only [busy, ↓reduceIte]
      cases x.locked with
      | true => exact .refl premises.sound
      | false => exact premises.close lock
    | false =>
      simp only [busy, Bool.false_eq_true, ↓reduceIte]
      exact premises.setHandle held rfl rfl

theorem start (premises : Premises h directory place) (owner lock : Nat) :
    Keeps place h (Archive.start directory owner false lock h).2 ∧
      ∀ a, (Archive.start directory owner false lock h).1 = .ok a → load directory h = .ok a.tables := by
  unfold Archive.start
  simp only [Bool.false_eq_true, ↓reduceIte]
  cases load directory h with
  | error f => exact ⟨premises.close lock, fun a opened => by cases opened⟩
  | ok tables => exact ⟨.refl premises.sound, fun a opened => by cases opened; rfl⟩

/-- Opening writes to no table file, and what it loads it loads from files that are still what they were. -/
theorem openIn (premises : Premises h directory place) (owner : Nat) :
    Keeps place h (Archive.openIn directory owner false h).2 ∧
      ∀ a, (Archive.openIn directory owner false h).1 = .ok a →
        ∃ h', Keeps place h h' ∧ Walkable (joinPath directory lockFile) ∧ load directory h' = .ok a.tables := by
  obtain ⟨kept₁, walkable⟩ := premises.openLock
  rw [openIn_eq]
  cases first : Archive.openLock directory h with
  | mk outcome h₁ =>
    rw [first] at kept₁ walkable
    cases outcome with
    | error f => exact ⟨kept₁, fun a opened => by cases opened⟩
    | ok lock =>
      have kept₂ := kept₁.trans ((premises.keeps kept₁).takeLock lock)
      dsimp only
      cases second : Archive.takeLock directory lock h₁ with
      | mk outcome h₂ =>
        rw [second] at kept₂
        cases outcome with
        | error f => exact ⟨kept₂, fun a opened => by cases opened⟩
        | ok =>
          obtain ⟨kept₃, loaded⟩ := (premises.keeps kept₂).start owner lock
          exact ⟨kept₂.trans kept₃, fun a opened => ⟨h₂, kept₂, walkable rfl, loaded a opened⟩⟩

end Premises

inductive Holds {ρ : Type} [TableFile.RowForm ρ] : Option Content → List ρ → Prop
  | nothing : Holds none []
  | file {bytes : List UInt8} {rows : List ρ} (decoded : TableFile.decode bytes = .ok rows) :
    Holds (some (.file bytes)) rows

variable {ρ : Type} [TableFile.RowForm ρ] {rows : List ρ}

theorem holds_of_rowsAt {node? : Option Node}
    (file : ∀ content, node?.map (·.content) = some content → ∃ bytes, content = .file bytes)
    (read : rowsAt node? = .ok rows) : Holds (node?.map (·.content)) rows := by
  cases node? with
  | none =>
    cases read
    exact .nothing
  | some node =>
    obtain ⟨bytes, same⟩ := file node.content rfl
    unfold rowsAt at read
    rw [Option.map_some, same]
    simp only [same] at read
    split at read
    · cases read
    · cases decoded : (TableFile.decode bytes : Except TableFault (List ρ)) with
      | error fault => rw [decoded] at read; cases read
      | ok found =>
        rw [decoded] at read
        cases read
        exact .file decoded

theorem rowsAt_of_holds {node? : Option Node} (readable : ∀ node ∈ node?, allows node .read = true)
    (holds : Holds (node?.map (·.content)) rows) : rowsAt node? = .ok rows := by
  cases node? with
  | none =>
    cases holds
    rfl
  | some node =>
    rw [Option.map_some] at holds
    generalize same : node.content = content at holds
    cases holds with
    | file decoded =>
      unfold rowsAt
      simp only [readable node rfl, same, decoded]
      rfl

theorem Premises.holds (premises : Premises h directory place) (walkable : Walkable (joinPath directory lockFile))
    (named : IsTable file) (read : readTable directory file h = .ok rows) : Holds (h.content? (place ++ [file])) rows := by
  obtain ⟨links, entered⟩ := premises.way
  have size : file.utf8ByteSize ≤ lockFile.utf8ByteSize := by obtain rfl | rfl := named <;> decide
  have walked := walk_of_enter entered named.plain (walkable.shorter plainName_lockFile named.plain size) named.short true
    fun _ => premises.noLink named
  rw [readTable_eq premises.sound walked] at read
  exact holds_of_rowsAt (premises.table file named) read

theorem Home.premises {held : Option Nat} (home : Home h directory place held) : Premises h directory place where
  sound := home.sound
  way := home.way
  home := by
    obtain ⟨node, there, content, -⟩ := home.home
    rw [content?, there, Option.map_some, content]
  table file named content found := Home.exists_file (home.table file named) found
  lock target link := by
    obtain ⟨bytes, same⟩ := Home.exists_file home.lock link
    cases same

structure Filed (h : Host) (place : Location) (catalogs : List CatalogEntry) (tracks : List TrackEntry) : Prop where
  catalogFile : Holds (h.content? (place ++ [catalogFile])) catalogs
  trackFile : Holds (h.content? (place ++ [trackFile])) tracks
  catalogKeys : ∀ e ∈ catalogs, 1 ≤ e.catalog.utf8ByteSize ∧ e.catalog.utf8ByteSize ≤ 30
  trackKeys : ∀ e ∈ tracks, 1 ≤ e.catalog.utf8ByteSize ∧ e.catalog.utf8ByteSize ≤ 30

/-- What opening an archive makes of its table files. -/
structure Opens (h : Host) (directory : String) (place : Location) (owner : Nat) : Prop where
  kept : ∀ file, IsTable file → (openIn directory owner false h).2.content? (place ++ [file]) = h.content? (place ++ [file])
  tables : ∀ a, (openIn directory owner false h).1 = .ok a → ∃ catalogs tracks, Filed h place catalogs tracks ∧
    (∀ k, a.tables.catalog? k = (catalogs.filter (·.catalog = k)).getLast?) ∧
    ∀ k number, a.tables.track? k number = (tracks.filter fun e => e.catalog = k ∧ e.number = number).getLast?
  /-- Where nobody else has the lock and the files can be read, they alone decide whether it goes through. -/
  goes : Home h directory place none → Reach directory → owner < owners →
    ((∃ a, (openIn directory owner false h).1 = .ok a) ↔ ∃ catalogs tracks, Filed h place catalogs tracks)

theorem Premises.filed_of_load (premises : Premises h directory place)
    (walkable : Walkable (joinPath directory lockFile)) {s : Store} (loaded : load directory h = .ok s) :
    ∃ catalogs tracks, Filed h place catalogs tracks ∧ s = { catalogs := .ofRows catalogs, tracks := .ofRows tracks } := by
  obtain ⟨catalogs, tracks, reads, catalogKeys, trackKeys, rfl⟩ := load_eq_ok_iff.1 loaded
  obtain ⟨readCatalogs, readTracks⟩ := Prod.ext_iff.1 reads
  exact ⟨catalogs, tracks, ⟨premises.holds walkable (.inl rfl) readCatalogs, premises.holds walkable (.inr rfl) readTracks,
    fun e he => checkKey_eq_ok_iff_size.1 (catalogKeys e he), fun e he => checkKey_eq_ok_iff_size.1 (trackKeys e he)⟩, rfl⟩

theorem Home.load_of_filed {held : Option Nat} (home : Home h directory place held) (reach : Reach directory)
    {catalogs : List CatalogEntry} {tracks : List TrackEntry} (filed : Filed h place catalogs tracks) :
    load directory h = .ok { catalogs := .ofRows catalogs, tracks := .ofRows tracks } := by
  have readable (file : String) (named : IsTable file) (node : Node) (found : node ∈ h.node? (place ++ [file])) :=
    (home.table file named node found).2
  refine load_eq_ok_iff.2 ⟨catalogs, tracks, ?_, fun e he => checkKey_eq_ok_iff_size.2 (filed.catalogKeys e he),
    fun e he => checkKey_eq_ok_iff_size.2 (filed.trackKeys e he), rfl⟩
  rw [readBoth, home.readTable_eq reach (.inl rfl), home.readTable_eq reach (.inr rfl),
    rowsAt_of_holds (readable _ (.inl rfl)) filed.catalogFile, rowsAt_of_holds (readable _ (.inr rfl)) filed.trackFile]

theorem Keeps.filed_iff (keeps : Keeps place h h') {catalogs : List CatalogEntry} {tracks : List TrackEntry} :
    Filed h' place catalogs tracks ↔ Filed h place catalogs tracks := by
  have same (h h' : Host) (kept : ∀ file, IsTable file → h'.content? (place ++ [file]) = h.content? (place ++ [file]))
      (filed : Filed h' place catalogs tracks) : Filed h place catalogs tracks :=
    ⟨kept _ (.inl rfl) ▸ filed.catalogFile, kept _ (.inr rfl) ▸ filed.trackFile, filed.catalogKeys, filed.trackKeys⟩
  exact ⟨same h h' keeps.same, same h' h fun file named => (keeps.same file named).symm⟩

theorem Premises.opens (premises : Premises h directory place) (owner : Nat) : Opens h directory place owner := by
  obtain ⟨kept, opened⟩ := premises.openIn owner
  have filed (a : Archive) (ok : (Archive.openIn directory owner false h).1 = .ok a) :
      ∃ catalogs tracks, Filed h place catalogs tracks ∧
        a.tables = { catalogs := .ofRows catalogs, tracks := .ofRows tracks } := by
    obtain ⟨h', keeps, walkable, loaded⟩ := opened a ok
    obtain ⟨catalogs, tracks, filed, same⟩ := (premises.keeps keeps).filed_of_load walkable loaded
    exact ⟨catalogs, tracks, keeps.filed_iff.1 filed, same⟩
  refine ⟨kept.same, fun a ok => ?_, fun home reach owned => ⟨fun ⟨a, ok⟩ => ?_, ?_⟩⟩
  · obtain ⟨catalogs, tracks, filed, same⟩ := filed a ok
    refine ⟨catalogs, tracks, filed, fun k => ?_, fun k number => ?_⟩
    · rw [same, Store.catalog?, Table.find?_ofRows]
      rfl
    · rw [same, Store.track?, Table.find?_ofRows]
      simp only [key, TrackKey.mk.injEq]
  · obtain ⟨catalogs, tracks, filed, -⟩ := filed a ok
    exact ⟨catalogs, tracks, filed⟩
  · rintro ⟨catalogs, tracks, filed⟩
    have start : if false then ({ catalogs := .ofRows catalogs, tracks := .ofRows tracks } : Store) = {}
        else load directory h = .ok { catalogs := .ofRows catalogs, tracks := .ofRows tracks } := home.load_of_filed reach filed
    obtain ⟨a, h', ok, -⟩ := openIn_home reach owned (home.makeDirectories reach) home start
    exact ⟨a, by rw [ok]⟩

/-- A table file says where it ends, and whatever table files hold, opening an archive leaves them as they are and finds
the last row with each key, or nothing at all. -/
theorem table_files (premises : Premises h directory place) (owner : Nat) :
    TableFile.Delimits CatalogEntry.Sized ∧ TableFile.Delimits TrackEntry.Sized ∧ Opens h directory place owner :=
  ⟨CatalogEntry.delimits, TrackEntry.delimits, premises.opens owner⟩

section Doubled

def older : CatalogEntry := { catalog := "CD1", title := "Ágætis byrjun" }

def newer : CatalogEntry := { catalog := "CD1", title := "( )" }

def doubled : Host where
  names := [([], 0), (["d"], 1), (["d", "catalog.db"], 2), (["d", "tracks.db"], 3)]
  nodes := [⟨.directory, 0o755⟩, ⟨.directory, 0o755⟩, ⟨.file (TableFile.encode [older, newer] ++ [7, 7]), 0o644⟩,
    ⟨.file (TableFile.encode ([] : List TrackEntry)), 0o644⟩]

theorem home_doubled : Home doubled "d" ["d"] none := by
  have nothing (name : String) (other : name ≠ "catalog.db" ∧ name ≠ "tracks.db") :
      doubled.node? (["d"] ++ [name]) = none := by
    refine node?_eq_none_of_names ?_
    simp [doubled, other.1.symm, other.2.symm]
  have there : doubled.node? ["d"] = some ⟨.directory, 0o755⟩ := rfl
  refine ⟨Sound.of_names (by decide) (by simp [doubled]) (by simp [doubled]), ⟨_, enter_of_plain
    ⟨by decide, by decide, by decide, by decide, by decide⟩ (by decide) rfl⟩, ⟨_, there, rfl, by decide⟩, ?_, ?_, ?_, ?_⟩
  · intro file named node found
    obtain rfl | rfl := named <;> cases found <;> exact ⟨⟨_, rfl⟩, rfl⟩
  · intro file named owner
    exact nothing _ ⟨asideName_ne (by decide), asideName_ne (by decide)⟩
  · intro node found
    rw [nothing _ ⟨by decide, by decide⟩] at found
    cases found
  · intro i x found
    cases found

theorem table_files_doubled : ∃ a, (openIn "d" 7 false doubled).1 = .ok a ∧ a.tables.catalog? "CD1" = some newer := by
  have reach : Reach "d" := ⟨by decide, by decide⟩
  obtain ⟨catalogForm, trackForm, opens⟩ := table_files home_doubled.premises 7
  have sized : ∀ e ∈ [older, newer], e.Sized := by
    have small : older.Sized ∧ newer.Sized := by
      constructor <;> constructor <;> decide
    simp [small.1, small.2]
  have entries := catalogForm.whole [older, newer] (by decide) sized [7, 7]
  have none := trackForm.whole [] (by decide) (by simp) []
  have filed : Filed doubled ["d"] [older, newer] [] :=
    ⟨.file entries, .file none, by decide, by simp⟩
  obtain ⟨a, opened⟩ := (opens.goes home_doubled reach (by decide)).2 ⟨_, _, filed⟩
  obtain ⟨catalogs, tracks, read, found, -⟩ := opens.tables a opened
  have same : catalogs = [older, newer] := by
    have holds : Holds (some (.file (TableFile.encode [older, newer] ++ [7, 7]))) catalogs := read.catalogFile
    cases holds with
    | file decoded => exact Except.ok.inj (decoded.symm.trans entries)
  refine ⟨a, opened, (found "CD1").trans ?_⟩
  rw [same]
  decide

end Doubled

end Archive

end DiscCatalog
