import DiscCatalog.Proofs.Archive.RoundTrip
import DiscCatalog.Proofs.Archive.Tables

namespace DiscCatalog

namespace Archive

open Host

variable {ρ : Type} [TableFile.RowForm ρ] {h h' : Host} {directory file : String} {owner links : Nat} {place : Location}
  {bytes : List UInt8}

structure Clear (h : Host) (place : Location) (owner : Nat) (file : String) : Prop where
  table : ∀ target, h.content? (place ++ [file]) ≠ some (.link target)
  aside : ∀ node, h.node? (place ++ [asideName file owner]) = some node →
    node.content = .directory ∨ (∃ bytes, node.content = .file bytes) ∧ allows node .read = true

theorem Clear.plain (clear : Clear h place owner file) : h.Plain (place ++ [asideName file owner]) := by
  intro content found
  obtain ⟨node, there, rfl⟩ := Option.map_eq_some_iff.1 found
  exact (clear.aside node there).imp id And.left

theorem Clear.leaf (clear : Clear h place owner file) (free : h.content? (place ++ [file]) ≠ some .directory) :
    h.Leaf (place ++ [file]) := ⟨free, clear.table⟩

theorem Clear.leaf_aside (clear : Clear h place owner file)
    (free : h.content? (place ++ [asideName file owner]) ≠ some .directory) :
    h.Leaf (place ++ [asideName file owner]) := ⟨free, clear.plain.noLink⟩

theorem Clear.allows_bits (clear : Clear h place owner file)
    (free : h.content? (place ++ [asideName file owner]) ≠ some .directory) (content : Content) :
    allows ⟨content, h.bits (place ++ [asideName file owner])⟩ .read = true := by
  rw [bits]
  cases found : h.node? (place ++ [asideName file owner]) with
  | none => simp [allows, grant, withheld]
  | some node =>
    obtain directory | ⟨-, readable⟩ := clear.aside node found
    · exact absurd (by rw [content?, found, Option.map_some, directory]) free
    · exact readable

theorem Clear.changed {places : List Location} (clear : Clear h place owner file) (change : Changed places h h')
    (table : place ++ [file] ∉ places) (aside : place ++ [asideName file owner] ∉ places) :
    Clear h' place owner file := by
  refine ⟨fun target => ?_, fun node there => ?_⟩
  · rw [change.content? table]
    exact clear.table target
  · rw [change.node? _ aside] at there
    exact clear.aside node there

inductive Outcome (h : Host) (directory : String) (place : Location) (owner : Nat) (file : String)
    (bytes : List UInt8) : Except StoreFault Unit × Host → Prop
  | refused (f : StoreFault) : Outcome h directory place owner file bytes (.error f, h)
  | abandoned (f : StoreFault) (h' : Host) (change : Changed [place ++ [asideName file owner]] h h')
      (leaf : h.Leaf (place ++ [asideName file owner])) : Outcome h directory place owner file bytes (.error f, h')
  | replaced (h' : Host) (permissions : Nat)
      (change : Changed [place ++ [asideName file owner], place ++ [file]] h h')
      (leaves : h.Leaf (place ++ [asideName file owner]) ∧ h.Leaf (place ++ [file]))
      (walkable : Walkable (joinPath directory file)) (short : file.utf8ByteSize ≤ maxName)
      (written : h'.node? (place ++ [file]) = some ⟨.file bytes, permissions⟩)
      (readable : allows ⟨.file bytes, permissions⟩ .read = true)
      (gone : h'.node? (place ++ [asideName file owner]) = none) :
      Outcome h directory place owner file bytes (.ok (), h')

section Steps

variable {bytes : List UInt8} {e : Errno} {h₁ h₂ : Host}

theorem writeTable_unwritten (plain : PlainName file)
    (refused : h.writeFile (joinPath directory (asideName file owner)) bytes = (.error e, h₁)) :
    writeTable directory owner file bytes h = (.error (storeFault e), h₁) := by
  rw [← joinPath_asideName plain] at refused
  simp only [writeTable, refused]

theorem writeTable_unmoved (plain : PlainName file)
    (wrote : h.writeFile (joinPath directory (asideName file owner)) bytes = (.ok (), h₁))
    (refused : h₁.rename (joinPath directory (asideName file owner)) (joinPath directory file) = (.error e, h₂)) :
    writeTable directory owner file bytes h =
      (.error (storeFault e), (h₂.unlink (joinPath directory (asideName file owner))).2) := by
  rw [← joinPath_asideName plain] at wrote refused ⊢
  simp only [writeTable, wrote, refused]

theorem writeTable_moved (plain : PlainName file)
    (wrote : h.writeFile (joinPath directory (asideName file owner)) bytes = (.ok (), h₁))
    (moved : h₁.rename (joinPath directory (asideName file owner)) (joinPath directory file) = (.ok (), h₂)) :
    writeTable directory owner file bytes h = (.ok (), h₂) := by
  rw [← joinPath_asideName plain] at wrote moved
  simp only [writeTable, wrote, moved]

end Steps

theorem writeTable_of_walk_error {e : Errno} (plain : PlainName file)
    (nowhere : h.walk true (joinPath directory (asideName file owner)) = .error e) (bytes : List UInt8) :
    writeTable directory owner file bytes h = (.error (storeFault e), h) :=
  writeTable_unwritten plain (writeFile_refused (createFile_unreached nowhere) bytes)

/-- Writing a table file replaces the table, or leaves everything but the temporary file alone. -/
theorem writeTable_outcome (sound : h.Sound) (entered : h.enter directory = .ok (place, links))
    (plain : PlainName file) (clear : Clear h place owner file) (bytes : List UInt8) :
    Outcome h directory place owner file bytes (writeTable directory owner file bytes h) := by
  have aside := plainName_asideName plain owner
  cases walked : h.walk true (joinPath directory (asideName file owner)) with
  | error e =>
    rw [writeTable_of_walk_error plain walked]
    exact .refused _
  | ok there =>
    obtain ⟨walkable, short, -⟩ := enter_of_walk aside walked
    have size : file.utf8ByteSize ≤ (asideName file owner).utf8ByteSize := Nat.le_of_lt utf8ByteSize_lt_asideName
    have atAside := walk_of_enter entered aside walkable short true fun _ => clear.plain.noLink
    rw [atAside] at walked
    cases walked
    obtain ⟨e, refused⟩ | ⟨h₁, wrote, first, found, free⟩ := writeFile_plain sound atAside clear.plain bytes
    · rw [writeTable_unwritten plain refused]
      exact .refused _
    · have leaf := clear.leaf_aside free
      have still : h₁.enter directory = .ok (place, links) :=
        enter_retained (first.retains (by simpa using leaf)) first.directory entered
      have walkableTable := walkable.shorter aside plain size
      have source := walk_of_enter still aside walkable short false fun h => by cases h
      have target := walk_of_enter still plain walkableTable (Nat.le_trans size short) false fun h => by cases h
      have apart : place ++ [asideName file owner] ≠ place ++ [file] := by simpa using asideName_ne_self
      have away : place ++ [file] ∉ [place ++ [asideName file owner]] := by simpa using apart.symm
      -- What stands under the table's own name was not touched so far.
      obtain ⟨e, refused⟩ | ⟨h₂, moved, second, now, gone, noDirectory⟩ := rename_file first.sound source found target apart
      · rw [writeTable_unmoved plain wrote refused]
        exact .abandoned _ _ (first.trans (unlink_file first.sound source).1) leaf
      · rw [writeTable_moved plain wrote moved]
        rw [first.content? away] at noDirectory
        exact .replaced h₂ _ ((first.mono (by simp)).trans second) ⟨leaf, clear.leaf noDirectory⟩ walkableTable
          (Nat.le_trans size short) now (clear.allows_bits free _) gone

theorem writeTable_of_no_way {e : Errno} (plain : PlainName file) (nowhere : h.enter directory = .error e)
    (bytes : List UInt8) : ∃ f, writeTable directory owner file bytes h = (.error f, h) := by
  cases walked : h.walk true (joinPath directory (asideName file owner)) with
  | error e => exact ⟨_, writeTable_of_walk_error plain walked bytes⟩
  | ok there =>
    obtain ⟨-, -, place, links, entered, -⟩ := enter_of_walk (plainName_asideName plain owner) walked
    rw [nowhere] at entered
    cases entered

theorem readTable_of_failed {f : StoreFault} {other : String} (sound : h.Sound)
    (clear : ∀ place links, h.enter directory = .ok (place, links) →
      Clear h place owner file ∧ ∀ target, h.content? (place ++ [other]) ≠ some (.link target))
    (plain : PlainName file) (also : PlainName other) (short : other.utf8ByteSize ≤ maxName)
    (apart : asideName file owner ≠ other) (failed : writeTable directory owner file bytes h = (.error f, h')) :
    (readTable directory other h' : Except StoreFault (List ρ)) = readTable directory other h := by
  cases entered : h.enter directory with
  | error e =>
    obtain ⟨f', same⟩ : ∃ f', writeTable directory owner file bytes h = (.error f', h) :=
      writeTable_of_no_way plain entered bytes
    rw [same] at failed
    cases failed
    rfl
  | ok way =>
    obtain ⟨place, links⟩ := way
    obtain ⟨clear, noLink⟩ := clear place links entered
    have outcome := writeTable_outcome sound entered plain clear bytes
    rw [failed] at outcome
    cases outcome with
    | refused => rfl
    | abandoned f h' change leaf =>
      exact readTable_changed sound change (by simpa using leaf) entered also short noLink (by simpa using apart.symm)

variable (ρ) in
theorem readTable_of_written (sound : h.Sound)
    (clear : ∀ place links, h.enter directory = .ok (place, links) → Clear h place owner file)
    (plain : PlainName file) (written : writeTable directory owner file bytes h = (.ok (), h')) :
    ∃ place links, h.enter directory = .ok (place, links) ∧ h'.enter directory = .ok (place, links)
      ∧ Changed [place ++ [asideName file owner], place ++ [file]] h h'
      ∧ (∀ q ∈ [place ++ [asideName file owner], place ++ [file]], h.Leaf q)
      ∧ h'.content? (place ++ [file]) = some (.file bytes)
      ∧ (readTable directory file h' : Except StoreFault (List ρ)) =
          (TableFile.decode bytes).mapError .unreadable := by
  cases entered : h.enter directory with
  | error e =>
    obtain ⟨f, refused⟩ : ∃ f, writeTable directory owner file bytes h = (.error f, h) :=
      writeTable_of_no_way plain entered bytes
    rw [refused] at written
    cases written
  | ok way =>
    obtain ⟨place, links⟩ := way
    have outcome := writeTable_outcome sound entered plain (clear place links entered) bytes
    rw [written] at outcome
    cases outcome with
    | replaced h' permissions change leaves walkable short now readable gone =>
      have leaves' : ∀ q ∈ [place ++ [asideName file owner], place ++ [file]], h.Leaf q := by simpa using leaves
      have still := enter_retained (change.retains leaves') change.directory entered
      have content : h'.content? (place ++ [file]) = some (.file bytes) := by rw [content?, now]; rfl
      have walked := walk_of_enter still plain walkable short true fun _ target link => by
        rw [content] at link
        cases link
      refine ⟨place, links, rfl, still, change, leaves', content, ?_⟩
      rw [readTable_eq change.sound walked, now, rowsAt]
      simp only [readable, not_true_eq_false, ↓reduceIte]

section Done

variable {node : Node}

theorem mayChange_append (h : Host) (place : Location) (name : String) :
    h.mayChange (place ++ [name]) = (h.node? place).any fun node => node.permissions &&& 0o200 ≠ 0 := by
  rw [mayChange, List.dropLast_concat]
  cases h.node? place <;> rfl

theorem writeTable_done (sound : h.Sound) (entered : h.enter directory = .ok (place, links)) (plain : PlainName file)
    (clear : Clear h place owner file) (walkable : Walkable (joinPath directory (asideName file owner)))
    (short : (asideName file owner).utf8ByteSize ≤ maxName)
    (free : h.nodeOf? (place ++ [asideName file owner]) = none) (home : h.node? place = some node)
    (writable : node.permissions &&& 0o200 ≠ 0) (noDirectory : h.content? (place ++ [file]) ≠ some .directory)
    (bytes : List UInt8) : (writeTable directory owner file bytes h).1 = .ok () := by
  have may (name : String) : h.mayChange (place ++ [name]) = true := by
    rw [mayChange_append, home, Option.any_some, decide_eq_true writable]
  have aside := plainName_asideName plain owner
  have walked := walk_of_enter entered aside walkable short true fun _ => clear.plain.noLink
  obtain ⟨h₁, wrote, change, made⟩ := writeFile_new sound walked free (may _) bytes
  obtain ⟨number, at?, there⟩ := nodeOf?_of_node? made
  have none : h.content? (place ++ [asideName file owner]) = none := by rw [content?, node?, free]; rfl
  have still := enter_retained (change.retains (by simp [Leaf, none])) change.directory entered
  have source := walk_of_enter still aside walkable short false fun h => by cases h
  have target := walk_of_enter still plain (walkable.shorter aside plain (Nat.le_of_lt utf8ByteSize_lt_asideName))
    (Nat.le_trans (Nat.le_of_lt utf8ByteSize_lt_asideName) short) false fun h => by cases h
  have apart : place ++ [asideName file owner] ≠ place ++ [file] := by simpa using asideName_ne_self
  have mayStill (name : String) : h₁.mayChange (place ++ [name]) = true := by
    rw [mayChange_append, change.node? place (by simp), home, Option.any_some, decide_eq_true writable]
  rw [← change.content? (by simpa using asideName_ne_self.symm)] at noDirectory
  have moved := rename_eq source at? there target apart
  rw [if_neg noDirectory, if_pos ⟨mayStill _, mayStill _⟩] at moved
  rw [writeTable_moved plain wrote moved]

end Done

end Archive

end DiscCatalog
