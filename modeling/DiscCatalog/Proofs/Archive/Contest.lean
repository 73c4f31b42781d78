import DiscCatalog.Proofs.Archive.Reopening
import Mathlib.Logic.Function.Basic

namespace DiscCatalog

namespace Store

def applyAll (changes : List Change) (s : Store) : Except StoreFault Store := changes.foldlM (fun s c => s.apply c) s

variable {s t u : Store} {changes more : List Change}

theorem applyAll_append (first : applyAll changes s = .ok t) (second : applyAll more t = .ok u) :
    applyAll (changes ++ more) s = .ok u := by
  rw [applyAll, List.foldlM_append]
  rw [applyAll] at first
  rw [first]
  exact second

theorem atStart_apply {c : Change} (applied : s.apply c = .ok t) (same : s.atStart = s) : t.atStart = t := by
  have scan : s.scan = .start := (congrArg Store.scan same).symm
  obtain ⟨e, rfl, -, rfl⟩ | ⟨e, rfl, -, rfl⟩ | ⟨key, rfl, -, rfl⟩ | ⟨key, number, rfl, -, rfl⟩ | ⟨rfl, rfl⟩ :=
    apply_eq_ok applied <;> simp only [atStart, scan]

theorem size_applyAll_le (made : applyAll changes s = .ok t) :
    t.catalogs.size ≤ s.catalogs.size + changes.length ∧ t.tracks.size ≤ s.tracks.size + changes.length := by
  induction changes generalizing s with
  | nil =>
    cases made
    exact ⟨Nat.le_refl _, Nat.le_refl _⟩
  | cons c changes ih =>
    rw [applyAll, List.foldlM_cons] at made
    cases applied : s.apply c with
    | error f =>
      rw [applied] at made
      cases made
    | ok u =>
      rw [applied] at made
      obtain ⟨more, moreTracks⟩ := size_apply_le applied
      obtain ⟨most, mostTracks⟩ := ih made
      rw [List.length_cons]
      omega

end Store

namespace Archive

open Host

inductive Stage where
  | outside
  | waiting (owner : Nat) (new : Bool) (lock : Nat)
  | inside (owner : Nat) (new : Bool) (lock : Nat)
  | opened (a : Archive)

namespace Stage

def lock? : Stage → Option Nat
  | .outside => none
  | .waiting _ _ lock | .inside _ _ lock => some lock
  | .opened a => some a.lock

def hasLock : Stage → Bool
  | .outside | .waiting .. => false
  | .inside .. | .opened _ => true

/-- An open archive has the tables that it should. -/
def Fits (directory : String) (t : Store) : Stage → Prop
  | .outside => True
  | .waiting owner _ _ | .inside owner _ _ => owner < owners
  | .opened a => a.directory = directory ∧ a.owner < owners ∧ a.tables = t

theorem Fits.of_not_hasLock {directory : String} {t t' : Store} {stage : Stage} (fits : stage.Fits directory t)
    (without : stage.hasLock = false) : stage.Fits directory t' := by
  cases stage with
  | outside | waiting => exact fits
  | inside | opened => cases without

end Stage

/-- What the would-be owners have come to, each known by a number. The changes that went through are kept, the
oldest first; to throw everything away at the opening counts as a reset. -/
structure Contest where
  host : Host
  stage : Nat → Stage := fun _ => .outside
  done : List Change := []

inductive Move where
  | openLock (p owner : Nat) (new : Bool)
  | takeLock (p : Nat)
  | start (p : Nat)
  | change (p : Nat) (c : Change)
  /-- The handle is closed, be it an archive's or that of an opening which is given up. -/
  | leave (p : Nat)

def Move.party : Move → Nat
  | .openLock p _ _ | .takeLock p | .start p | .change p _ | .leave p => p

/-- Texts of a size that there can be, and owners that there are. -/
def Move.Proper : Move → Prop
  | .openLock _ owner _ => owner < owners
  | .change _ c => c.Sized
  | _ => True

namespace Contest

def put (s : Contest) (p : Nat) (stage : Stage) (host : Host) (done : List Change) : Contest :=
  { host, stage := Function.update s.stage p stage, done := s.done ++ done }

def step (directory : String) (s : Contest) : Move → Contest
  | .openLock p owner new =>
    match s.stage p with
    | .outside =>
      match Archive.openLock directory s.host with
      | (.ok lock, h) => s.put p (.waiting owner new lock) h []
      | (.error _, h) => s.put p .outside h []
    | _ => s
  | .takeLock p =>
    match s.stage p with
    | .waiting owner new lock =>
      match Archive.takeLock directory lock s.host with
      | (.ok (), h) => s.put p (.inside owner new lock) h []
      | (.error _, h) => s.put p .outside h []
    | _ => s
  | .start p =>
    match s.stage p with
    | .inside owner new lock =>
      match Archive.start directory owner new lock s.host with
      | (.ok a, h) => s.put p (.opened a) h (if new then [.reset] else [])
      | (.error _, h) => s.put p .outside h []
    | _ => s
  | .change p c =>
    match s.stage p with
    | .opened a =>
      match Archive.change c (a, s.host) with
      | (.ok (), a, h) => s.put p (.opened a) h [c]
      | (.error _, a, h) => s.put p (.opened a) h []
    | _ => s
  | .leave p =>
    match (s.stage p).lock? with
    | some lock => s.put p .outside (s.host.close lock) []
    | none => s

def run (directory : String) (moves : List Move) (s : Contest) : Contest := moves.foldl (step directory) s

variable {directory : String} {place : Location} {s : Contest} {p : Nat} {t : Store}

@[simp] theorem host_put (stage : Stage) (host : Host) (done : List Change) :
    (s.put p stage host done).host = host := rfl

@[simp] theorem stage_put_self (stage : Stage) (host : Host) (done : List Change) :
    (s.put p stage host done).stage p = stage :=
  Function.update_self ..

theorem stage_put_of_ne {q : Nat} (other : q ≠ p) (stage : Stage) (host : Host) (done : List Change) :
    (s.put p stage host done).stage q = s.stage q :=
  Function.update_of_ne other ..

theorem forall_stage_put {P : Nat → Stage → Prop} {stage : Stage} (here : P p stage)
    (others : ∀ q, q ≠ p → P q (s.stage q)) (host : Host) (done : List Change) (q : Nat) :
    P q ((s.put p stage host done).stage q) := by
  by_cases same : q = p
  · subst same
    rwa [stage_put_self]
  · rw [stage_put_of_ne same]
    exact others q same

@[simp] theorem put_put (first second : Stage) (host host' : Host) (done : List Change) :
    (s.put p first host []).put p second host' done = s.put p second host' done := by
  simp only [put, Function.update_idem, List.append_nil]

/-- When nobody comes between its steps, an opening is what it is in one go. -/
theorem run_opening (outside : s.stage p = .outside) (owner : Nat) (new : Bool) :
    run directory [.openLock p owner new, .takeLock p, .start p] s =
      match openIn directory owner new s.host with
      | (.ok a, h) => s.put p (.opened a) h (if new then [.reset] else [])
      | (.error _, h) => s.put p .outside h [] := by
  rw [openIn_eq, run, List.foldl_cons, List.foldl_cons, List.foldl_cons, List.foldl_nil]
  rcases opened : Archive.openLock directory s.host with ⟨_ | lock, h⟩
  · simp [step, outside, opened]
  · rcases taken : Archive.takeLock directory lock h with ⟨_ | _, h'⟩
    · simp [step, outside, opened, taken]
    · rcases started : Archive.start directory owner new lock h' with ⟨_ | a, h''⟩ <;>
        simp [step, outside, opened, taken, started]

structure Shared (directory : String) (place : Location) (holder : Option Nat) (t : Store) (s : Contest) : Prop where
  home : Home s.host directory place (holder.bind fun p => (s.stage p).lock?)
  holds : ∀ p, (s.stage p).hasLock = true ↔ holder = some p
  grips : ∀ p lock, (s.stage p).lock? = some lock → Grip s.host place lock (s.stage p).hasLock
  apart : ∀ p q lock, (s.stage p).lock? = some lock → (s.stage q).lock? = some lock → p = q
  fits : ∀ p, (s.stage p).Fits directory t
  loads : load directory s.host = .ok t
  done : Store.applyAll s.done {} = .ok t

namespace Shared

variable {holder holder' : Option Nat} {t' : Store} {h : Host} {stage : Stage} {changes : List Change}

theorem without (shared : Shared directory place holder t s) (free : (s.stage p).hasLock = false) :
    holder ≠ some p := by
  intro has
  rw [(shared.holds p).2 has] at free
  cases free

theorem put (shared : Shared directory place holder t s)
    (home : Home h directory place (holder'.bind fun q => ((s.put p stage h changes).stage q).lock?))
    (mine : stage.hasLock = true ↔ holder' = some p) (theirs : ∀ q, q ≠ p → (holder' = some q ↔ holder = some q))
    (own : ∀ lock, stage.lock? = some lock → Grip h place lock stage.hasLock)
    (new : ∀ lock, stage.lock? = some lock → (s.stage p).lock? = some lock ∨ s.host.handle? lock = none)
    (frame : ∀ lock locked, (s.stage p).lock? ≠ some lock → Grip s.host place lock locked → Grip h place lock locked)
    (fits : stage.Fits directory t') (same : t' = t ∨ (s.stage p).hasLock = true)
    (loads : load directory h = .ok t') (done : Store.applyAll changes t = .ok t') :
    Shared directory place holder' t' (s.put p stage h changes) := by
  -- Nobody else has the handle that `p` has now.
  have sole (q lock : Nat) (other : q ≠ p) (has : stage.lock? = some lock) : (s.stage q).lock? ≠ some lock := by
    intro also
    obtain old | fresh := new lock has
    · exact other (shared.apart q p lock also old)
    · obtain ⟨x, taken, -⟩ := shared.grips q lock also
      rw [fresh] at taken
      cases taken
  refine ⟨home, ?_, ?_, ?_, ?_, loads, Store.applyAll_append shared.done done⟩
  · refine forall_stage_put (P := fun q stage => stage.hasLock = true ↔ holder' = some q) mine (fun q other => ?_) h
      changes
    rw [theirs q other]
    exact shared.holds q
  · refine forall_stage_put (P := fun _ stage => ∀ lock, stage.lock? = some lock → Grip h place lock stage.hasLock) own
      ?_ h changes
    exact fun q other lock has =>
      frame lock _ (fun old => other (shared.apart q p lock has old)) (shared.grips q lock has)
  · intro q r lock
    refine forall_stage_put (P := fun q stage => stage.lock? = some lock → _ → q = r) (fun has => ?_)
      (fun q apart has => ?_) h changes q
    · exact forall_stage_put (P := fun r stage => stage.lock? = some lock → p = r) (fun _ => rfl)
        (fun r other also => absurd also (sole r lock other has)) h changes r
    · exact forall_stage_put (P := fun r stage => stage.lock? = some lock → q = r)
        (fun also => absurd has (sole q lock apart also)) (fun r _ also => shared.apart q r lock has also) h changes r
  · refine forall_stage_put (P := fun _ stage => stage.Fits directory t') fits (fun q other => ?_) h changes
    obtain rfl | sure := same
    · exact shared.fits q
    · refine (shared.fits q).of_not_hasLock (Bool.eq_false_iff.2 fun has => ?_)
      exact other (Option.some.inj (((shared.holds q).1 has).symm.trans ((shared.holds p).1 sure)))

theorem put_outside (shared : Shared directory place holder t s) (before : (s.stage p).hasLock = false)
    (after : stage.hasLock = false) (home : Home h directory place (holder.bind fun q => (s.stage q).lock?))
    (own : ∀ lock, stage.lock? = some lock → Grip h place lock false ∧ s.host.handle? lock = none)
    (frame : ∀ lock locked, (s.stage p).lock? ≠ some lock → Grip s.host place lock locked → Grip h place lock locked)
    (fits : stage.Fits directory t) (reads : readBoth directory h = readBoth directory s.host) :
    Shared directory place holder t (s.put p stage h []) := by
  have free := shared.without before
  have same : (holder.bind fun q => ((s.put p stage h []).stage q).lock?) = holder.bind fun q => (s.stage q).lock? := by
    cases holder with
    | none => rfl
    | some q => exact congrArg Stage.lock? (stage_put_of_ne (fun here => free (congrArg some here)) ..)
  refine shared.put (same ▸ home) ?_ (fun _ _ => Iff.rfl) ?_ (fun lock has => .inr (own lock has).2) frame fits
    (.inl rfl) ((load_congr reads).trans shared.loads) rfl
  · rw [after]
    exact ⟨fun has => (by cases has), fun has => absurd has free⟩
  · intro lock has
    rw [after]
    exact (own lock has).1

theorem put_inside (shared : Shared directory place holder t s) (can : holder = none ∧ t' = t ∨ holder = some p)
    (after : stage.hasLock = true) {lock : Nat} (before : (s.stage p).lock? = some lock) (has : stage.lock? = some lock)
    (home : Home h directory place (some lock)) (own : Grip h place lock true)
    (frame : ∀ i locked, i ≠ lock → Grip s.host place i locked → Grip h place i locked)
    (fits : stage.Fits directory t') (loads : load directory h = .ok t') (done : Store.applyAll changes t = .ok t') :
    Shared directory place (some p) t' (s.put p stage h changes) := by
  refine shared.put ?_ ?_ (fun q other => ?_) ?_ ?_ ?_ fits ?_ loads done
  · rw [Option.bind_some, stage_put_self, has]
    exact home
  · rw [after]
    exact ⟨fun _ => rfl, fun _ => rfl⟩
  · have apart : some p ≠ some q := fun same => other (Option.some.inj same).symm
    refine ⟨fun same => absurd same apart, fun same => ?_⟩
    obtain ⟨nobody, -⟩ | self := can
    · rw [nobody] at same
      cases same
    · exact absurd (self.symm.trans same) apart
  · intro i same
    cases has.symm.trans same
    rw [after]
    exact own
  · intro i same
    cases has.symm.trans same
    exact .inl before
  · intro i locked other
    exact frame i locked fun same => other (same ▸ before)
  · obtain ⟨-, same⟩ | self := can
    · exact .inl same
    · exact .inr ((shared.holds p).2 self)

variable {owner lock q : Nat} {new : Bool} {a : Archive}

theorem openLock (shared : Shared directory place holder t s) (reach : Reach directory) (outside : s.stage p = .outside)
    (owned : owner < owners) (new : Bool) :
    ∃ lock h, Archive.openLock directory s.host = (.ok lock, h)
      ∧ Shared directory place holder t (s.put p (.waiting owner new lock) h []) := by
  obtain ⟨lock, h, opened, home, grip, reads, fresh, others⟩ := shared.home.openLock reach
  refine ⟨lock, h, opened, shared.put_outside (by rw [outside]; rfl) rfl home ?_ ?_ owned reads⟩
  · intro i same
    cases same
    exact ⟨grip, fresh⟩
  · exact fun i locked _ had => (others i locked had).1

theorem seat (shared : Shared directory place holder t s) (at? : s.stage p = stage) (has : stage.lock? = some lock) :
    (s.stage p).lock? = some lock ∧ stage.Fits directory t ∧ Grip s.host place lock stage.hasLock := by
  subst at?
  exact ⟨has, shared.fits p, shared.grips p lock has⟩

theorem lone (shared : Shared directory place holder t s) (has : (s.stage p).lock? = some lock)
    (sure : (s.stage p).hasLock = true) : holder = some p ∧ Home s.host directory place (some lock) := by
  have self := (shared.holds p).1 sure
  have home := shared.home
  rw [self, Option.bind_some, has] at home
  exact ⟨self, home⟩

theorem takeLock (shared : Shared directory place none t s) (reach : Reach directory)
    (waiting : s.stage p = .waiting owner new lock) :
    ∃ h, Archive.takeLock directory lock s.host = (.ok (), h)
      ∧ Shared directory place (some p) t (s.put p (.inside owner new lock) h []) := by
  obtain ⟨has, fits, grip⟩ := shared.seat waiting rfl
  obtain ⟨h, taken, home, own, reads, -, others⟩ := Home.takeLock shared.home reach grip
  exact ⟨h, taken, shared.put_inside (.inl ⟨rfl, rfl⟩) rfl has rfl home own others fits
    ((load_congr reads).trans shared.loads) rfl⟩

theorem exists_grip (shared : Shared directory place holder t s) (has : (s.stage p).hasLock = true) :
    ∃ i, Grip s.host place i true := by
  obtain ⟨i, lock⟩ : ∃ i, (s.stage p).lock? = some i := by
    cases stage : s.stage p with
    | outside | waiting =>
      rw [stage] at has
      cases has
    | inside _ _ i => exact ⟨i, rfl⟩
    | opened a => exact ⟨a.lock, rfl⟩
  exact ⟨i, has ▸ shared.grips p i lock⟩

theorem takeLock_locked (shared : Shared directory place holder t s) (reach : Reach directory)
    (waiting : s.stage p = .waiting owner new lock) (taken : (s.stage q).hasLock = true) :
    ∃ h, Archive.takeLock directory lock s.host = (.error (.locked (joinPath directory lockFile)), h)
      ∧ SameFiles s.host h ∧ Shared directory place holder t (s.put p .outside h []) := by
  obtain ⟨has, -, grip⟩ := shared.seat waiting rfl
  obtain ⟨i, grip'⟩ := shared.exists_grip taken
  obtain ⟨h, refused, home, reads, same, others⟩ := Home.takeLock_locked shared.home reach grip grip'
  refine ⟨h, refused, same, shared.put_outside (by rw [waiting]; rfl) rfl home nofun ?_ trivial reads⟩
  exact fun i locked other had => others i locked (fun here => other (here ▸ has)) had

theorem openIn_locked (shared : Shared directory place holder t s) (reach : Reach directory)
    (taken : (s.stage q).hasLock = true) (owner : Nat) (new : Bool) :
    ∃ h, openIn directory owner new s.host = (.error (.locked (joinPath directory lockFile)), h)
      ∧ SameFiles s.host h := by
  obtain ⟨i, grip⟩ := shared.exists_grip taken
  obtain ⟨lock, h₁, opened, home₁, grip₁, -, -, others⟩ := shared.home.openLock reach
  obtain ⟨grip', same₁⟩ := others i true grip
  obtain ⟨h₂, refused, -, -, same₂, -⟩ := home₁.takeLock_locked reach grip₁ grip'
  refine ⟨h₂, ?_, same₁.trans same₂⟩
  rw [openIn_eq, opened]
  simp only [refused]

theorem startsWith (shared : Shared directory place holder t s) (new : Bool) :
    if new then (if new then {} else t) = ({} : Store) else load directory s.host = .ok (if new then {} else t) := by
  cases new with
  | true => rfl
  | false => exact shared.loads

theorem start (shared : Shared directory place holder t s) (reach : Reach directory)
    (inside : s.stage p = .inside owner new lock) :
    ∃ a h, Archive.start directory owner new lock s.host = (.ok a, h)
      ∧ Shared directory place (some p) (if new then {} else t)
        (s.put p (.opened a) h (if new then [.reset] else [])) := by
  obtain ⟨has, fits, grip⟩ := shared.seat inside rfl
  obtain ⟨self, home⟩ := shared.lone has (by rw [inside]; rfl)
  obtain ⟨h, started, home', steady, loads⟩ := home.start reach fits (shared.startsWith new)
  refine ⟨_, h, started, shared.put_inside (.inr self) rfl has rfl home' (grip.steady steady)
    (fun i locked _ had => had.steady steady) ⟨rfl, fits, rfl⟩ ?_ ?_⟩
  · rw [loads]
    cases new with
    | true => rfl
    | false => rw [if_neg Bool.false_ne_true, atStart_of_load shared.loads]
  · cases new <;> rfl

/-- An open archive is the one that its files give. -/
theorem kept (shared : Shared directory place holder t s) (opened : s.stage p = .opened a) :
    Kept a s.host place ∧ a.directory = directory ∧ a.tables = t := by
  obtain ⟨has, ⟨rfl, owned, rfl⟩, x, taken, own, -⟩ := shared.seat opened rfl
  obtain ⟨-, home⟩ := shared.lone has (by rw [opened]; rfl)
  exact ⟨⟨home, ⟨x, taken, own⟩, by rw [shared.loads, atStart_of_load shared.loads], owned⟩, rfl, rfl⟩

theorem change (shared : Shared directory place holder t s) (reach : Reach directory) (opened : s.stage p = .opened a)
    {c : Change} (sized : c.Sized)
    (few : t.catalogs.size + 1 < TableFile.limit ∧ t.tracks.size + 1 < TableFile.limit) :
    ∃ a' h, Archive.change c (a, s.host) = ((RecordStore.memory.change c t).1, a', h)
      ∧ Shared directory place (some p) (RecordStore.memory.change c t).2
        (s.put p (.opened a') h (match t.apply c with | .ok _ => [c] | .error _ => [])) := by
  obtain ⟨kept, rfl, rfl⟩ := shared.kept opened
  obtain ⟨has, -, grip⟩ := shared.seat opened rfl
  obtain ⟨self, -⟩ := shared.lone has (by rw [opened]; rfl)
  obtain ⟨h, changed, kept', steady⟩ := kept.change reach sized few
  refine ⟨_, h, changed, shared.put_inside (.inr self) rfl has rfl kept'.home (grip.steady steady)
    (fun i locked _ had => had.steady steady) ⟨rfl, kept.owned, rfl⟩ ?_ ?_⟩
  · have same := atStart_of_load shared.loads
    have start : (RecordStore.memory.change c a.tables).2.atStart = (RecordStore.memory.change c a.tables).2 :=
      RecordStore.of_memory_change (P := fun t => t.atStart = t) same fun t made => Store.atStart_apply made same
    exact kept'.loads.trans (congrArg Except.ok start)
  · cases applied : a.tables.apply c with
    | error f =>
      rw [RecordStore.memory_change_of_error applied]
      rfl
    | ok tables =>
      rw [RecordStore.memory_change_of_ok applied]
      dsimp only
      rw [Store.applyAll, List.foldlM_cons, applied]
      rfl

theorem closed (shared : Shared directory place holder t s) (reach : Reach directory)
    (has : (s.stage p).lock? = some lock) : s.host.close lock = s.host.removing lock := by
  obtain ⟨x, taken, own, -⟩ := shared.grips p lock has
  exact (shared.home.closed reach taken own fun _ _ there => there).1

theorem leave (shared : Shared directory place holder t s) (reach : Reach directory)
    (has : (s.stage p).lock? = some lock) :
    ∃ holder', Shared directory place holder' t (s.put p .outside (s.host.close lock) []) := by
  obtain ⟨x, taken, own, -⟩ := shared.grips p lock has
  have frame (i : Nat) (locked : Bool) (other : (s.stage p).lock? ≠ some i) (had : Grip s.host place i locked) :
      Grip (s.host.close lock) place i locked := by
    rw [shared.closed reach has]
    exact had.removing fun here => other (here ▸ has)
  cases holds : (s.stage p).hasLock with
  | false =>
    obtain ⟨-, home, reads⟩ := shared.home.closed reach taken own fun _ _ there => there
    exact ⟨holder, shared.put_outside holds rfl home nofun frame trivial reads⟩
  | true =>
    obtain ⟨self, before⟩ := shared.lone has holds
    obtain ⟨-, home, reads⟩ : _ ∧ Home (s.host.close lock) directory place none ∧ _ :=
      before.closed reach taken own fun i other same => absurd (Option.some.inj same).symm other
    refine ⟨none, shared.put home ⟨nofun, nofun⟩ (fun q other => ⟨nofun, fun same => ?_⟩) nofun nofun frame trivial
      (.inl rfl) ((load_congr reads).trans shared.loads) rfl⟩
    exact absurd (Option.some.inj (same.symm.trans self)) other

/-- Whatever one of them does next. -/
theorem step (shared : Shared directory place holder t s) (reach : Reach directory) {m : Move} (proper : m.Proper)
    (few : t.catalogs.size + 1 < TableFile.limit ∧ t.tracks.size + 1 < TableFile.limit) :
    ∃ holder' t', Shared directory place holder' t' (s.step directory m) := by
  cases m with
  | openLock p owner new =>
    cases at? : s.stage p with
    | outside =>
      obtain ⟨lock, h, opened, next⟩ := shared.openLock reach at? proper new
      exact ⟨holder, t, by simpa only [Contest.step, at?, opened] using next⟩
    | waiting | inside | opened => exact ⟨holder, t, by simpa only [Contest.step, at?] using shared⟩
  | takeLock p =>
    cases at? : s.stage p with
    | waiting owner new lock =>
      cases who : holder with
      | none =>
        subst who
        obtain ⟨h, taken, next⟩ := shared.takeLock reach at?
        exact ⟨some p, t, by simpa only [Contest.step, at?, taken] using next⟩
      | some q =>
        obtain ⟨h, refused, -, next⟩ := shared.takeLock_locked reach at? ((shared.holds q).2 who)
        exact ⟨holder, t, by simpa only [Contest.step, at?, refused] using next⟩
    | outside | inside | opened => exact ⟨holder, t, by simpa only [Contest.step, at?] using shared⟩
  | start p =>
    cases at? : s.stage p with
    | inside owner new lock =>
      obtain ⟨a, h, started, next⟩ := shared.start reach at?
      exact ⟨some p, _, by simpa only [Contest.step, at?, started] using next⟩
    | outside | waiting | opened => exact ⟨holder, t, by simpa only [Contest.step, at?] using shared⟩
  | change p c =>
    cases at? : s.stage p with
    | opened a =>
      obtain ⟨a', h, changed, next⟩ := shared.change reach at? proper few
      cases applied : t.apply c with
      | error f =>
        rw [RecordStore.memory_change_of_error applied] at changed next
        rw [applied] at next
        exact ⟨some p, t, by simpa only [Contest.step, at?, changed] using next⟩
      | ok tables =>
        rw [RecordStore.memory_change_of_ok applied] at changed next
        rw [applied] at next
        exact ⟨some p, tables, by simpa only [Contest.step, at?, changed] using next⟩
    | outside | waiting | inside => exact ⟨holder, t, by simpa only [Contest.step, at?] using shared⟩
  | leave p =>
    cases has : (s.stage p).lock? with
    | some lock =>
      obtain ⟨holder', next⟩ := shared.leave reach has
      exact ⟨holder', t, by simpa only [Contest.step, has] using next⟩
    | none => exact ⟨holder, t, by simpa only [Contest.step, has] using shared⟩

theorem sameFiles_step (shared : Shared directory place holder t s) (reach : Reach directory)
    (has : (s.stage p).hasLock = true) {m : Move} (other : m.party ≠ p) :
    SameFiles s.host (s.step directory m).host := by
  have alone (q : Nat) (apart : q ≠ p) (also : (s.stage q).hasLock = true) : False :=
    apart (Option.some.inj (((shared.holds q).1 also).symm.trans ((shared.holds p).1 has)))
  cases m with
  | openLock q owner new =>
    cases at? : s.stage q with
    | outside =>
      obtain ⟨i, grip⟩ := shared.exists_grip has
      obtain ⟨lock, h, opened, -, -, -, -, others⟩ := shared.home.openLock reach
      simp only [Contest.step, at?, opened]
      exact (others i true grip).2
    | waiting | inside | opened =>
      simp only [Contest.step, at?]
      exact ⟨rfl, rfl⟩
  | takeLock q =>
    cases at? : s.stage q with
    | waiting owner new lock =>
      obtain ⟨h, refused, same, -⟩ := shared.takeLock_locked reach at? has
      simp only [Contest.step, at?, refused]
      exact same
    | outside | inside | opened =>
      simp only [Contest.step, at?]
      exact ⟨rfl, rfl⟩
  | start q =>
    cases at? : s.stage q with
    | inside => exact (alone q other (by rw [at?]; rfl)).elim
    | outside | waiting | opened =>
      simp only [Contest.step, at?]
      exact ⟨rfl, rfl⟩
  | change q c =>
    cases at? : s.stage q with
    | opened => exact (alone q other (by rw [at?]; rfl)).elim
    | outside | waiting | inside =>
      simp only [Contest.step, at?]
      exact ⟨rfl, rfl⟩
  | leave q =>
    cases lock : (s.stage q).lock? with
    | some i =>
      simp only [Contest.step, lock, host_put, shared.closed reach lock]
      exact ⟨rfl, rfl⟩
    | none =>
      simp only [Contest.step, lock]
      exact ⟨rfl, rfl⟩

end Shared

theorem length_done_step (directory : String) (s : Contest) (m : Move) :
    (s.step directory m).done.length ≤ s.done.length + 1 := by
  have put (p : Nat) (stage : Stage) (h : Host) {changes : List Change} (few : changes.length ≤ 1) :
      (s.put p stage h changes).done.length ≤ s.done.length + 1 := by
    rw [Contest.put, List.length_append]
    omega
  have same := Nat.le_succ s.done.length
  cases m with
  | openLock p owner new =>
    simp only [step]
    split
    · split <;> exact put _ _ _ (by decide)
    · exact same
  | takeLock p =>
    simp only [step]
    split
    · split <;> exact put _ _ _ (by decide)
    · exact same
  | start p =>
    simp only [step]
    split
    · split
      · exact put _ _ _ (by split <;> decide)
      · exact put _ _ _ (by decide)
    · exact same
  | change p c =>
    simp only [step]
    split
    · split <;> exact put _ _ _ (by simp)
    · exact same
  | leave p =>
    simp only [step]
    split
    · exact put _ _ _ (by decide)
    · exact same

theorem Shared.size_le {holder : Option Nat} (shared : Shared directory place holder t s) :
    t.catalogs.size ≤ s.done.length ∧ t.tracks.size ≤ s.done.length := by
  obtain ⟨rows, trackRows⟩ := Store.size_applyAll_le shared.done
  have none : ({} : Store).catalogs.size = 0 ∧ ({} : Store).tracks.size = 0 := ⟨rfl, rfl⟩
  omega

/-- Each move puts at most one change through, so that the bound on rows shrinks with the moves that are left. -/
theorem Shared.run {holder : Option Nat} (shared : Shared directory place holder t s) (reach : Reach directory)
    {moves : List Move} (proper : ∀ m ∈ moves, m.Proper) (few : s.done.length + moves.length < TableFile.limit) :
    ∃ holder' t', Shared directory place holder' t' (run directory moves s)
      ∧ (run directory moves s).done.length ≤ s.done.length + moves.length := by
  induction moves generalizing holder t s with
  | nil => exact ⟨holder, t, shared, Nat.le_refl _⟩
  | cons m moves ih =>
    obtain ⟨first, later⟩ := List.forall_mem_cons.1 proper
    rw [List.length_cons] at few
    have rows := shared.size_le
    obtain ⟨holder₁, t₁, next⟩ := shared.step reach first (by omega)
    have grown := length_done_step directory s m
    obtain ⟨holder', t', last, most⟩ := ih next later (by omega)
    rw [List.length_cons]
    exact ⟨holder', t', last, Nat.le_trans most (by omega)⟩

/-- What holds at every moment, with `t` for the tables that all changes which went through make one after the other. -/
structure Orderly (directory : String) (s : Contest) (t : Store) : Prop where
  /-- At most one has an archive open, or is about to. -/
  alone : ∀ p q, (s.stage p).hasLock = true → (s.stage q).hasLock = true → p = q
  /-- As long as one has, to open it is refused and leaves every file as it was, also if it was to be thrown away. -/
  refused : ∀ p, (s.stage p).hasLock = true → ∀ owner new, ∃ h,
    openIn directory owner new s.host = (.error (.locked (joinPath directory lockFile)), h) ∧ SameFiles s.host h
  /-- So is whoever waits with the lock file open. -/
  turnedAway : ∀ p, (s.stage p).hasLock = true → ∀ q owner new lock, s.stage q = .waiting owner new lock → ∃ h,
    Archive.takeLock directory lock s.host = (.error (.locked (joinPath directory lockFile)), h) ∧ SameFiles s.host h
  /-- Nor does any other move of anyone else touch a file. -/
  untouched : ∀ p, (s.stage p).hasLock = true → ∀ m : Move, m.party ≠ p → SameFiles s.host (s.step directory m).host
  admitted : (∀ p, (s.stage p).hasLock = false) → ∀ owner, owner < owners → ∀ new, ∃ a h,
    openIn directory owner new s.host = (.ok a, h)
  done : Store.applyAll s.done {} = .ok t
  /-- These are the tables in the files. -/
  loads : load directory s.host = .ok t
  /-- An open archive has these tables too, and answers a change as they do. -/
  current : ∀ p a, s.stage p = .opened a → a.tables = t
  answers : ∀ p a, s.stage p = .opened a → ∀ c : Change, c.Sized →
    (Archive.change c (a, s.host)).1 = (RecordStore.memory.change c t).1

theorem Shared.orderly {holder : Option Nat} (shared : Shared directory place holder t s) (reach : Reach directory)
    (few : t.catalogs.size + 1 < TableFile.limit ∧ t.tracks.size + 1 < TableFile.limit) : Orderly directory s t where
  alone p q has also := Option.some.inj (((shared.holds p).1 has).symm.trans ((shared.holds q).1 also))
  refused p has owner new := shared.openIn_locked reach has owner new
  turnedAway p has q owner new lock waiting := by
    obtain ⟨h, refused, same, -⟩ := shared.takeLock_locked reach waiting has
    exact ⟨h, refused, same⟩
  untouched p has m other := shared.sameFiles_step reach has other
  admitted nobody owner owned new := by
    have who : holder = none := by
      cases holder with
      | none => rfl
      | some p => exact absurd ((shared.holds p).2 rfl) (by rw [nobody p]; exact Bool.false_ne_true)
    have home := shared.home
    rw [who] at home
    obtain ⟨a, h, opened, -⟩ := openIn_home reach owned (home.makeDirectories reach) home (shared.startsWith new)
    exact ⟨a, h, opened⟩
  done := shared.done
  loads := shared.loads
  current p a opened := (shared.kept opened).2.2
  answers p a opened c sized := by
    obtain ⟨a', h, changed, -⟩ := shared.change reach opened sized few
    rw [changed]

/-- A directory in which files can be made and there are none. -/
structure Vacant (h : Host) (directory : String) (place : Location) : Prop where
  sound : h.Sound
  way : ∃ links, h.enter directory = .ok (place, links)
  home : ∃ node, h.node? place = some node ∧ node.content = .directory ∧ node.permissions &&& 0o200 ≠ 0
  nothing : ∀ name, h.node? (place ++ [name]) = none

theorem Vacant.toHome {h : Host} (vacant : Vacant h directory place) : Home h directory place none where
  sound := vacant.sound
  way := vacant.way
  home := vacant.home
  table file _ node found := by
    rw [vacant.nothing] at found
    cases found
  aside file _ owner := vacant.nothing _
  lock node found := by
    rw [vacant.nothing] at found
    cases found
  locks i x _ own := by
    rw [vacant.sound.nodeOf?_eq_none (vacant.nothing _)] at own
    cases own

theorem Vacant.load_eq {h : Host} (vacant : Vacant h directory place) (reach : Reach directory) :
    load directory h = .ok {} := by
  refine load_eq_ok_iff.2 ⟨[], [], ?_, by simp, by simp, rfl⟩
  rw [readBoth, vacant.toHome.readTable_eq reach (.inl rfl), vacant.toHome.readTable_eq reach (.inr rfl), vacant.nothing,
    vacant.nothing]
  rfl

/-- However many want to own a directory, and in whatever order they do what they do, no change is lost: from an
empty directory on, what is in its files is at every moment what all the changes that went through make, one after
the other, and who does not get the lock touches nothing. -/
theorem no_change_lost {h : Host} (reach : Reach directory) (vacant : Vacant h directory place) {moves : List Move}
    (proper : ∀ m ∈ moves, m.Proper) (few : moves.length + 1 < TableFile.limit) :
    ∃ t, Orderly directory (run directory moves { host := h }) t := by
  have start : Shared directory place none {} { host := h } := by
    refine ⟨vacant.toHome, ?_, nofun, nofun, fun _ => trivial, vacant.load_eq reach, rfl⟩
    exact fun p => ⟨nofun, nofun⟩
  have none : ({ host := h } : Contest).done.length = 0 := rfl
  obtain ⟨holder, t, shared, most⟩ := start.run reach proper (by omega)
  have rows := shared.size_le
  exact ⟨t, shared.orderly reach (by omega)⟩

section Bare

def twoAtOnce : List Move :=
  [.openLock 0 7 false, .openLock 1 8 true, .takeLock 0, .takeLock 1, .start 0,
    .change 0 (.putCatalog (.ofKey "CD1")), .leave 0, .openLock 1 8 false, .takeLock 1, .start 1,
    .change 1 (.putCatalog (.ofKey "CD2"))]

theorem vacant_bare : Vacant bare "d" ["d"] where
  sound := home_bare.sound
  way := home_bare.way
  home := home_bare.home
  nothing name := node?_eq_none_of_names (by simp [bare])

theorem no_change_lost_bare : ∃ t, Orderly "d" (run "d" twoAtOnce { host := bare }) t := by
  have reach : Reach "d" := ⟨by decide, by decide⟩
  have first : (CatalogEntry.ofKey "CD1").Sized := ⟨by decide, by decide, by decide, by decide⟩
  have second : (CatalogEntry.ofKey "CD2").Sized := ⟨by decide, by decide, by decide, by decide⟩
  have proper : ∀ m ∈ twoAtOnce, m.Proper := by
    simp [twoAtOnce, Move.Proper, Change.Sized, first, second, owners]
  exact no_change_lost reach vacant_bare proper (by decide)

end Bare

end Contest

end Archive

end DiscCatalog
