import DiscCatalog.Proofs.Archive.Opening
import DiscCatalog.Proofs.Store.Scan

namespace DiscCatalog

/-- What is done with an archive: calls, and now and then it is closed and opened again. -/
inductive Use where
  | call (c : StoreCall)
  | reopen (owner : Nat) (new : Bool)

/-- Texts of a size that there can be, and owners that there are. -/
def Use.Proper : Use → Prop
  | .call (.change c) => c.Sized
  | .call _ => True
  | .reopen owner _ => owner < Archive.owners

def useAll {σ : Type} (use : Use → σ → StoreReply × σ) : List Use → σ → List StoreReply × σ
  | [], s => ([], s)
  | u :: us, s =>
    let (reply, s) := use u s
    let (replies, s) := useAll use us s
    (reply :: replies, s)

/-- What would come of it without any files: opening again restarts the scan, or throws all away. -/
def Store.use : Use → Store → StoreReply × Store
  | .call c, s => RecordStore.memory.perform c s
  | .reopen _ new, s => (.done (.ok ()), if new then {} else s.atStart)

namespace Archive

open Host

/-- An archive that is not opened again stays as it was, closed. -/
def use : Use → Archive × Host → StoreReply × Archive × Host
  | .call c, s => recordStore.perform c s
  | .reopen owner new, (a, h) =>
    match openIn a.directory owner new (a.close h) with
    | (.ok a, h) => (.done (.ok ()), a, h)
    | (.error f, h) => (.done (.error f), a, h)

/-- An open archive in its home, which holds the lock and whose files give its tables. -/
structure Kept (a : Archive) (h : Host) (place : Location) : Prop where
  home : Home h a.directory place (some a.lock)
  lock : ∃ x, h.handle? a.lock = some x ∧ h.nodeOf? (place ++ [lockFile]) = some x.node
  loads : load a.directory h = .ok a.tables.atStart
  owned : a.owner < owners

variable {a : Archive} {h h₀ : Host} {directory : String} {place : Location} {owner : Nat} {tables : Store}

theorem openIn_home (reach : Reach directory) (owned : owner < owners) (made : h.makeDirectories directory = (.ok (), h₀))
    (home : Home h₀ directory place none) {new : Bool}
    (start : if new then tables = {} else load directory h₀ = .ok tables) :
    ∃ a h', openIn directory owner new h = (.ok a, h') ∧ a.directory = directory ∧ a.tables = tables
      ∧ Kept a h' place := by
  have same : openLock directory h = openLock directory h₀ := by
    rw [openLock, openLock, if_neg reach.noNul, if_neg reach.noNul, made, home.makeDirectories reach]
  obtain ⟨lock, h₁, opened, home₁, grip₁, reads₁, -, -⟩ := home.openLock reach
  obtain ⟨h₂, taken, home₂, grip₂, reads₂, -, -⟩ := home₁.takeLock reach grip₁
  have holds : if new then tables = {} else load directory h₂ = .ok tables := by
    cases new with
    | true => exact start
    | false => exact (load_congr (reads₂.trans reads₁)).trans start
  obtain ⟨h', started, home', steady, loads⟩ := home₂.start reach owned holds
  obtain ⟨x, found, own, -⟩ := grip₂.steady steady
  refine ⟨⟨directory, owner, tables, lock⟩, h', ?_, rfl, rfl, home', ⟨x, found, own⟩, loads, owned⟩
  rw [openIn_eq, same, opened]
  simp only [taken, started]

namespace Kept

theorem reopen (kept : Kept a h place) (reach : Reach a.directory) (owned : owner < owners) (new : Bool) :
    ∃ a' h', openIn a.directory owner new (a.close h) = (.ok a', h') ∧ a'.directory = a.directory
      ∧ a'.tables = (if new then {} else a.tables.atStart) ∧ Kept a' h' place := by
  obtain ⟨x, taken, own⟩ := kept.lock
  obtain ⟨-, closed, reads⟩ := kept.home.closed reach taken own fun i other same => absurd (Option.some.inj same).symm other
  refine openIn_home reach owned (closed.makeDirectories reach) closed ?_
  cases new with
  | true => rfl
  | false => exact (load_congr reads).trans kept.loads

theorem change (kept : Kept a h place) (reach : Reach a.directory) {c : Change} (sized : c.Sized)
    (few : a.tables.catalogs.size + 1 < TableFile.limit ∧ a.tables.tracks.size + 1 < TableFile.limit) :
    ∃ h', Archive.change c (a, h) =
        ((RecordStore.memory.change c a.tables).1, { a with tables := (RecordStore.memory.change c a.tables).2 }, h')
      ∧ Kept { a with tables := (RecordStore.memory.change c a.tables).2 } h' place ∧ Steady place h h' := by
  cases applied : a.tables.apply c with
  | error f =>
    have memory : RecordStore.memory.change c a.tables = (.error f, a.tables) :=
      RecordStore.memory_change_of_error applied
    exact ⟨h, by rw [Archive.change, applied, memory], by rw [memory]; exact kept, fun _ => rfl, rfl⟩
  | ok tables =>
    have memory : RecordStore.memory.change c a.tables = (.ok (), tables) := RecordStore.memory_change_of_ok applied
    have keys : a.tables.KeysHold := ⟨(keysHold_of_load kept.loads).catalogs, (keysHold_of_load kept.loads).tracks⟩
    have sizes : a.tables.Sized := ⟨(sized_of_load kept.loads).catalogs, (sized_of_load kept.loads).tracks⟩
    obtain ⟨more, moreTracks⟩ := Store.size_apply_le applied
    obtain ⟨h', wrote, home, steady, loads⟩ := kept.home.writeFor_loads reach kept.owned kept.loads applied
      (keys.apply applied) (sizes.apply sized applied) ⟨Nat.lt_of_le_of_lt more few.1, Nat.lt_of_le_of_lt moreTracks few.2⟩
    obtain ⟨x, taken, own⟩ := kept.lock
    refine ⟨h', by simp only [Archive.change, applied, wrote, memory], ?_, steady⟩
    rw [memory]
    exact ⟨home, ⟨x, (steady.handles _).trans taken, steady.lock.trans own⟩, loads, kept.owned⟩

theorem scanned (kept : Kept a h place) (scan : Scan) : Kept { a with tables := { a.tables with scan } } h place :=
  ⟨kept.home, kept.lock, kept.loads, kept.owned⟩

end Kept

theorem scan_eq_memory (query : String) (room : Nat) (first : Bool) (a : Archive) (h : Host) :
    recordStore.scan query room first (a, h) =
      ((RecordStore.memory.scan query room first a.tables).1,
        { a with tables := (RecordStore.memory.scan query room first a.tables).2 }, h) := by
  induction room generalizing first a with
  | zero => rfl
  | succ room ih =>
    have archive : recordStore.findNext query first (a, h) =
        ((a.tables.findNext query first).1, { a with tables := (a.tables.findNext query first).2 }, h) := rfl
    have memory : RecordStore.memory.findNext query first a.tables = a.tables.findNext query first := rfl
    rw [RecordStore.scan, RecordStore.scan, archive, memory]
    cases found : a.tables.findNext query first with
    | mk entry tables =>
      cases entry with
      | none => rfl
      | some entry => simp only [ih]

/-- Whatever is done with an archive comes to what it comes to in memory, and leaves it in its home. -/
theorem use_kept (kept : Kept a h place) (reach : Reach a.directory) {u : Use} (proper : u.Proper)
    (few : a.tables.catalogs.size + 1 < TableFile.limit ∧ a.tables.tracks.size + 1 < TableFile.limit) :
    ∃ a' h', use u (a, h) = ((Store.use u a.tables).1, a', h') ∧ a'.directory = a.directory
      ∧ a'.tables = (Store.use u a.tables).2 ∧ Kept a' h' place := by
  cases u with
  | reopen owner new =>
    obtain ⟨a', h', opened, same, tables, kept'⟩ := kept.reopen reach proper new
    exact ⟨a', h', by rw [use, opened]; rfl, same, tables, kept'⟩
  | call call =>
    cases call with
    | change c =>
      obtain ⟨h', changed, kept', -⟩ := kept.change reach proper few
      refine ⟨{ a with tables := (RecordStore.memory.change c a.tables).2 }, h', ?_, rfl, rfl, kept'⟩
      have archive : recordStore.change c (a, h) = Archive.change c (a, h) := rfl
      rw [use, RecordStore.perform, archive, changed]
      rfl
    | catalog key => exact ⟨a, h, rfl, rfl, rfl, kept⟩
    | track key number => exact ⟨a, h, rfl, rfl, rfl, kept⟩
    | find query first =>
      obtain ⟨scan, moved⟩ := Store.findNext_eq query first a.tables
      refine ⟨{ a with tables := (a.tables.findNext query first).2 }, h, rfl, rfl, rfl, ?_⟩
      rw [moved]
      exact kept.scanned scan
    | findAll query =>
      obtain ⟨scan, moved⟩ := Store.scan_eq query (a.tables.catalogs.size + 1) true a.tables
      refine ⟨{ a with tables := (RecordStore.memory.scan query (a.tables.catalogs.size + 1) true a.tables).2 }, h, ?_,
        rfl, rfl, ?_⟩
      · have size : recordStore.size (a, h) = a.tables.catalogs.size := rfl
        rw [use, RecordStore.perform, size, scan_eq_memory]
        rfl
      · rw [moved]
        exact kept.scanned scan

theorem size_use_le (u : Use) (s : Store) :
    (Store.use u s).2.catalogs.size ≤ s.catalogs.size + 1 ∧ (Store.use u s).2.tracks.size ≤ s.tracks.size + 1 := by
  have same (scan : Scan) : ({ s with scan } : Store).catalogs.size ≤ s.catalogs.size + 1
      ∧ ({ s with scan } : Store).tracks.size ≤ s.tracks.size + 1 := ⟨Nat.le_succ _, Nat.le_succ _⟩
  cases u with
  | reopen owner new =>
    cases new with
    | true => exact ⟨Nat.zero_le _, Nat.zero_le _⟩
    | false => exact same .start
  | call call =>
    cases call with
    | change c =>
      exact RecordStore.of_memory_change
        (P := fun t => t.catalogs.size ≤ s.catalogs.size + 1 ∧ t.tracks.size ≤ s.tracks.size + 1) (same s.scan)
        fun t made => Store.size_apply_le made
    | catalog | track => exact same s.scan
    | find query first =>
      obtain ⟨scan, moved⟩ := Store.findNext_eq query first s
      change (s.findNext query first).2.catalogs.size ≤ _ ∧ (s.findNext query first).2.tracks.size ≤ _
      rw [moved]
      exact same scan
    | findAll query =>
      obtain ⟨scan, moved⟩ := Store.scan_eq query (s.catalogs.size + 1) true s
      change (RecordStore.memory.scan query (s.catalogs.size + 1) true s).2.catalogs.size ≤ _
        ∧ (RecordStore.memory.scan query (s.catalogs.size + 1) true s).2.tracks.size ≤ _
      rw [moved]
      exact same scan

theorem useAll_kept {us : List Use} (kept : Kept a h place) (reach : Reach a.directory) (proper : ∀ u ∈ us, u.Proper)
    (few : a.tables.catalogs.size + us.length < TableFile.limit ∧ a.tables.tracks.size + us.length < TableFile.limit) :
    ∃ a' h', useAll use us (a, h) = ((useAll Store.use us a.tables).1, a', h') ∧ a'.directory = a.directory
      ∧ a'.tables = (useAll Store.use us a.tables).2 ∧ Kept a' h' place := by
  -- The invariant is `Kept`; each use may add a row, so that the bound on rows shrinks with what is left to do.
  induction us generalizing a h with
  | nil => exact ⟨a, h, rfl, rfl, rfl, kept⟩
  | cons u us ih =>
    obtain ⟨first, later⟩ := List.forall_mem_cons.1 proper
    rw [List.length_cons] at few
    obtain ⟨a₁, h₁, used, directory₁, tables₁, kept₁⟩ := use_kept kept reach first (by omega)
    obtain ⟨more, moreTracks⟩ := size_use_le u a.tables
    obtain ⟨a', h', all, directory', tables', kept'⟩ := ih kept₁ (directory₁ ▸ reach) later (by rw [tables₁]; omega)
    rw [tables₁] at all tables'
    refine ⟨a', h', ?_, directory'.trans directory₁, tables', kept'⟩
    rw [useAll, used]
    dsimp only
    rw [all]
    rfl

/-- An archive answers as a store in memory does through any number of restarts, none of which fails, and what
its files read as makes the tables that it has in memory. -/
theorem openIn_useAll (reach : Reach directory) (owned : owner < owners) (made : h.makeDirectories directory = (.ok (), h₀))
    (home : Home h₀ directory place none) {new : Bool}
    (start : if new then tables = {} else load directory h₀ = .ok tables) {us : List Use} (proper : ∀ u ∈ us, u.Proper)
    (few : tables.catalogs.size + us.length < TableFile.limit ∧ tables.tracks.size + us.length < TableFile.limit) :
    ∃ a h₁, openIn directory owner new h = (.ok a, h₁) ∧
      ∃ a' h', useAll use us (a, h₁) = ((useAll Store.use us tables).1, a', h')
        ∧ a'.tables = (useAll Store.use us tables).2
        ∧ ∃ catalogs tracks, readBoth directory h' = (.ok catalogs, .ok tracks)
          ∧ Table.ofRows catalogs = a'.tables.catalogs ∧ Table.ofRows tracks = a'.tables.tracks := by
  obtain ⟨a, h₁, opened, rfl, rfl, kept⟩ := openIn_home reach owned made home start
  obtain ⟨a', h', all, directory', tables', kept'⟩ := useAll_kept kept reach proper few
  refine ⟨a, h₁, opened, a', h', all, tables', ?_⟩
  obtain ⟨catalogs, tracks, reads, -, -, same⟩ := load_eq_ok_iff.1 kept'.loads
  rw [directory'] at reads
  exact ⟨catalogs, tracks, reads, (congrArg Store.catalogs same).symm, (congrArg Store.tracks same).symm⟩

section Bare

def bare : Host where
  names := [([], 0), (["d"], 1)]
  nodes := [⟨.directory, 0o755⟩, ⟨.directory, 0o755⟩]

def twoRestarts : List Use :=
  [.call (.change (.putCatalog (.ofKey "CD1"))), .reopen 8 false, .call (.catalog "CD1"), .reopen 9 true,
    .call (.catalog "CD1")]

theorem enter_bare : bare.enter "d" = .ok (["d"], maxLinks) :=
  enter_of_plain ⟨by decide, by decide, by decide, by decide, by decide⟩ (by decide) (by decide)

theorem home_bare : Home bare "d" ["d"] none := by
  have nothing (name : String) : bare.node? (["d"] ++ [name]) = none := by
    refine node?_eq_none_of_names ?_
    simp [bare]
  have there : bare.node? ["d"] = some ⟨.directory, 0o755⟩ := by decide
  refine ⟨Sound.of_names (by decide) (by decide) (by decide), ⟨_, enter_bare⟩, ⟨_, there, rfl, by decide⟩, ?_, ?_, ?_, ?_⟩
  · intro file _ node found
    rw [nothing] at found
    cases found
  · exact fun file _ owner => nothing _
  · intro node found
    rw [nothing] at found
    cases found
  · intro i x found
    cases found

theorem openIn_useAll_bare :
    ∃ a h₁, openIn "d" 7 false bare = (.ok a, h₁) ∧ ∃ a' h', useAll use twoRestarts (a, h₁) =
      ([.done (.ok ()), .done (.ok ()), .catalog (some (.ofKey "CD1")), .done (.ok ()), .catalog none], a', h') := by
  have reach : Reach "d" := ⟨by decide, by decide⟩
  have made : bare.makeDirectories "d" = (.ok (), bare) :=
    makeDirectories_existing (.inr ⟨by decide, by decide, by decide⟩) enter_bare (by decide)
  have owned : 7 < owners := by decide
  have start : if false then ({} : Store) = {} else load "d" bare = .ok {} := by
    refine load_eq_ok_iff.2 ⟨[], [], ?_, by simp, by simp, rfl⟩
    rw [readBoth, home_bare.readTable_eq reach (.inl rfl), home_bare.readTable_eq reach (.inr rfl)]
    rfl
  have sized : (CatalogEntry.ofKey "CD1").Sized := ⟨by decide, by decide, by decide, by decide⟩
  have proper : ∀ u ∈ twoRestarts, u.Proper := by
    simp [twoRestarts, Use.Proper, Change.Sized, sized, owners]
  obtain ⟨a, h₁, opened, a', h', all, -⟩ := openIn_useAll reach owned made home_bare start proper (by decide)
  exact ⟨a, h₁, opened, a', h', all⟩

end Bare

end Archive

end DiscCatalog
