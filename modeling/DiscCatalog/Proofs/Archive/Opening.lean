import DiscCatalog.Proofs.Archive.Home
import DiscCatalog.Proofs.Host.Handles

namespace DiscCatalog

namespace Archive

open Host

def openLock (directory : String) (h : Host) : Except StoreFault Nat × Host :=
  if '\x00' ∈ directory.toList then
    (.error (.io (.custom "file name contained an unexpected NUL byte")), h)
  else match h.makeDirectories directory with
  | (.error e, h) => (.error (storeFault e), h)
  | (.ok (), h) =>
    match h.createFile (joinPath directory lockFile) false with
    | (.error e, h) => (.error (storeFault e), h)
    | (.ok lock, h) => (.ok lock, h)

def takeLock (directory : String) (lock : Nat) (h : Host) : Except StoreFault Unit × Host :=
  match h.tryLock lock with
  | (false, h) => (.error (.locked (joinPath directory lockFile)), h.close lock)
  | (true, h) => (.ok (), h)

def start (directory : String) (owner : Nat) (new : Bool) (lock : Nat) (h : Host) :
    Except StoreFault Archive × Host :=
  let (tables, h) :=
    if new then
      match writeBoth directory owner {} h with
      | (.ok (), h) => (.ok {}, h)
      | (.error f, h) => (.error f, h)
    else (load directory h, h)
  match tables with
  | .ok tables => (.ok { directory, owner, tables, lock }, h)
  | .error f => (.error f, h.close lock)

/-- Opening an archive is these three steps and nothing else. -/
theorem openIn_eq (directory : String) (owner : Nat) (new : Bool) (h : Host) :
    openIn directory owner new h =
      match openLock directory h with
      | (.error f, h) => (.error f, h)
      | (.ok lock, h) =>
        match takeLock directory lock h with
        | (.error f, h) => (.error f, h)
        | (.ok (), h) => start directory owner new lock h := by
  unfold openIn openLock
  by_cases nul : '\x00' ∈ directory.toList
  · rw [if_pos nul, if_pos nul]
  · rw [if_neg nul, if_neg nul]
    rcases h.makeDirectories directory with ⟨_ | _, h⟩
    · rfl
    · dsimp only
      rcases h.createFile (joinPath directory lockFile) false with ⟨_ | lock, h⟩
      · rfl
      · dsimp only [takeLock]
        rcases h.tryLock lock with ⟨_ | _, h⟩ <;> rfl

structure SameFiles (h h' : Host) : Prop where
  names : h'.names = h.names
  nodes : h'.nodes = h.nodes

theorem SameFiles.trans {h h' h'' : Host} (first : SameFiles h h') (second : SameFiles h' h'') : SameFiles h h'' :=
  ⟨second.names.trans first.names, second.nodes.trans first.nodes⟩

def Grip (h : Host) (place : Location) (lock : Nat) (locked : Bool) : Prop :=
  ∃ x, h.handle? lock = some x ∧ h.nodeOf? (place ++ [lockFile]) = some x.node ∧ x.locked = locked

variable {h h' h₀ : Host} {directory : String} {place : Location} {held : Option Nat} {owner lock i : Nat}
  {locked : Bool} {tables : Store}

namespace Grip

theorem adding (grip : Grip h place lock locked) (added : Option Handle) : Grip (h.adding added) place lock locked := by
  obtain ⟨x, taken, own, same⟩ := grip
  exact ⟨x, handle?_adding_iff.2 (.inl taken), own, same⟩

theorem removing (grip : Grip h place lock locked) (other : lock ≠ i) : Grip (h.removing i) place lock locked := by
  obtain ⟨x, taken, own, same⟩ := grip
  exact ⟨x, by rw [handle?_removing, if_neg other, taken], own, same⟩

theorem steady (grip : Grip h place lock locked) (steady : Steady place h h') : Grip h' place lock locked := by
  obtain ⟨x, taken, own, same⟩ := grip
  exact ⟨x, (steady.handles lock).trans taken, steady.lock.trans own, same⟩

end Grip

namespace Home

theorem openLock (home : Home h directory place held) (reach : Reach directory) :
    ∃ lock h', Archive.openLock directory h = (.ok lock, h') ∧ Home h' directory place held ∧ Grip h' place lock false
      ∧ readBoth directory h' = readBoth directory h ∧ h.handle? lock = none
      ∧ ∀ i locked, Grip h place i locked → Grip h' place i locked ∧ SameFiles h h' := by
  obtain ⟨h₁, x, created, unlocked, own, home₁, reads, handles, there⟩ := home.createFile_lockFile reach
  have home₂ : Home (h₁.adding (some x)) directory place held := by
    refine home₁.rehandled (home₁.sound.adding fun y hy => ?_) rfl rfl rfl fun i y found at? taken => ?_
    · cases hy
      exact home₁.sound.there own
    · obtain old | ⟨-, new⟩ := handle?_adding_of_some found
      · exact home₁.locks i y old at? taken
      · cases new
        rw [unlocked] at taken
        cases taken
  refine ⟨h₁.handles.length, h₁.adding (some x), ?_, home₂, ⟨x, handle?_adding _, own, unlocked⟩, ?_, ?_, ?_⟩
  · rw [Archive.openLock, if_neg reach.noNul, home.makeDirectories reach]
    simp only [created]
  · exact (home₁.readBoth_congr home₂ reach fun file named => rfl).trans reads
  · rw [← handles, handle?, List.getElem?_eq_none (Nat.le_refl _)]
    rfl
  · intro i locked grip
    obtain none | same := there
    · obtain ⟨y, -, old, -⟩ := grip
      rw [none] at old
      cases old
    · rw [same]
      exact ⟨grip.adding _, rfl, rfl⟩

theorem takeLock (home : Home h directory place none) (reach : Reach directory) (grip : Grip h place lock false) :
    ∃ h', Archive.takeLock directory lock h = (.ok (), h') ∧ Home h' directory place (some lock)
      ∧ Grip h' place lock true ∧ readBoth directory h' = readBoth directory h ∧ SameFiles h h'
      ∧ ∀ i locked, i ≠ lock → Grip h place i locked → Grip h' place i locked := by
  obtain ⟨x, taken, own, unlocked⟩ := grip
  have free : (h.handlesOf x.node).any (·.locked) = false := by
    rw [List.any_eq_false]
    intro y inside has
    obtain ⟨i, found, same⟩ := mem_handlesOf.1 inside
    cases home.locks i y found (same ▸ own) has
  have handles (j : Nat) := handle?_setHandle (j := j) (x := { x with locked := true }) taken
  have home' : Home (h.setHandle lock { x with locked := true }) directory place (some lock) := by
    have sound := (later_setHandle (x := { x with locked := true }) home.sound taken rfl rfl).sound
    refine home.rehandled sound rfl rfl rfl fun i y found at? has => ?_
    rw [handles] at found
    split at found
    · next same => rw [same]
    · cases home.locks i y found at? has
  refine ⟨_, ?_, home', ⟨{ x with locked := true }, by rw [handles, if_pos rfl], own, rfl⟩,
    home.readBoth_congr home' reach fun file named => rfl, ⟨rfl, rfl⟩, ?_⟩
  · unfold Archive.takeLock Host.tryLock
    simp only [taken, free, Bool.false_eq_true, ↓reduceIte]
  · rintro i locked other ⟨y, found, at?, same⟩
    exact ⟨y, by rw [handles, if_neg other, found], at?, same⟩

theorem takeLock_locked (home : Home h directory place held) (reach : Reach directory) (grip : Grip h place lock false)
    (taken : Grip h place i true) :
    ∃ h', Archive.takeLock directory lock h = (.error (.locked (joinPath directory lockFile)), h')
      ∧ Home h' directory place held ∧ readBoth directory h' = readBoth directory h ∧ SameFiles h h'
      ∧ ∀ i locked, i ≠ lock → Grip h place i locked → Grip h' place i locked := by
  obtain ⟨x, found, own, unlocked⟩ := grip
  obtain ⟨y, found', own', has⟩ := taken
  have sole : held ≠ some lock := by
    rintro rfl
    cases home.locks i y found' own' has
    rw [found] at found'
    cases found'
    rw [unlocked] at has
    cases has
  have busy : (h.handlesOf x.node).any (·.locked) = true :=
    List.any_eq_true.2 ⟨y, mem_handlesOf.2 ⟨i, found', Option.some.inj (own'.symm.trans own)⟩, has⟩
  obtain ⟨same, home', reads⟩ := home.closed reach found own fun _ _ there => there
  refine ⟨h.close lock, ?_, home', reads, ?_, ?_⟩
  · unfold Archive.takeLock Host.tryLock
    simp only [found, busy, unlocked, ↓reduceIte]
  · rw [same]
    exact ⟨rfl, rfl⟩
  · intro j locked other grip
    rw [same]
    exact grip.removing other

/-- With the lock in hand the tables are thrown away or are those that the files hold. -/
theorem start (home : Home h directory place (some lock)) (reach : Reach directory) (owned : owner < owners) {new : Bool}
    (holds : if new then tables = {} else load directory h = .ok tables) :
    ∃ h', Archive.start directory owner new lock h = (.ok ⟨directory, owner, tables, lock⟩, h')
      ∧ Home h' directory place (some lock) ∧ Steady place h h' ∧ load directory h' = .ok tables.atStart := by
  unfold Archive.start
  cases new with
  | true =>
    obtain ⟨h', wrote, home', steady, reads⟩ :=
      home.writeBoth_reads reach owned Store.sized_empty (by decide) (by decide)
    have empty : tables = {} := holds
    subst empty
    simp only [↓reduceIte, wrote]
    exact ⟨h', rfl, home', steady, load_eq_ok_iff.2 ⟨[], [], reads, by simp, by simp, rfl⟩⟩
  | false =>
    have loaded : load directory h = .ok tables := holds
    simp only [Bool.false_eq_true, ↓reduceIte, loaded]
    exact ⟨h, rfl, home, ⟨fun _ => rfl, rfl⟩, by rw [atStart_of_load loaded]; exact loaded⟩

end Home

end Archive

end DiscCatalog
