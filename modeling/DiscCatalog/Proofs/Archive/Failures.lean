import DiscCatalog.Proofs.Archive.Writes

namespace DiscCatalog

namespace Archive

open Host

variable {h h' : Host} {directory file : String} {owner : Nat} {bytes : List UInt8}

/-- A reset gets as far as to put an empty catalog in place of one that holds rows. -/
def Empties (c : Change) (a : Archive) (h : Host) : Prop :=
  c = .reset ∧ (writeCatalogs a.directory a.owner {} h).1 = .ok () ∧ (readBoth a.directory h).1 ≠ .ok []

/-- Nobody has put a link, or what is no file, under the names of the archive's files. -/
def ClearFor (a : Archive) (h : Host) : Prop :=
  ∀ place links, h.enter a.directory = .ok (place, links) →
    Clear h place a.owner catalogFile ∧ Clear h place a.owner trackFile

section Change

variable {a a' : Archive} {c : Change} {f : StoreFault}

theorem readBoth_of_failed (sound : h.Sound) (plain : PlainName file)
    (clear : ∀ place links, h.enter directory = .ok (place, links) → Clear h place owner file
      ∧ ∀ other ∈ [catalogFile, trackFile], ∀ target, h.content? (place ++ [other]) ≠ some (.link target))
    (failed : writeTable directory owner file bytes h = (.error f, h')) :
    readBoth directory h' = readBoth directory h := by
  have catalogs : (readTable directory catalogFile h' : Except StoreFault (List CatalogEntry)) =
      readTable directory catalogFile h := by
    refine readTable_of_failed sound (fun place links entered => ?_) plain plainName_catalogFile (by decide)
      (asideName_ne (by decide)) failed
    exact ⟨(clear place links entered).1, (clear place links entered).2 _ (by simp)⟩
  have tracks : (readTable directory trackFile h' : Except StoreFault (List TrackEntry)) =
      readTable directory trackFile h := by
    refine readTable_of_failed sound (fun place links entered => ?_) plain plainName_trackFile (by decide)
      (asideName_ne (by decide)) failed
    exact ⟨(clear place links entered).1, (clear place links entered).2 _ (by simp)⟩
  rw [readBoth, readBoth, catalogs, tracks]

theorem ClearFor.noLink {place : Location} {links : Nat} (clear : ClearFor a h)
    (entered : h.enter a.directory = .ok (place, links)) :
    ∀ other ∈ [catalogFile, trackFile], ∀ target, h.content? (place ++ [other]) ≠ some (.link target) := by
  obtain ⟨catalogs, tracks⟩ := clear place links entered
  simpa using ⟨catalogs.table, tracks.table⟩

theorem writeCatalogs_written {s : Store} (sound : h.Sound) (clear : ClearFor a h)
    (written : writeCatalogs a.directory a.owner s h = (.ok (), h')) :
    h'.Sound ∧ ∃ place links, h.enter a.directory = .ok (place, links) ∧ h'.enter a.directory = .ok (place, links)
      ∧ Clear h' place a.owner trackFile
      ∧ h'.content? (place ++ [catalogFile]) = some (.file (TableFile.encode s.catalogs.rows))
      ∧ h'.content? (place ++ [trackFile]) = h.content? (place ++ [trackFile])
      ∧ (readBoth a.directory h') =
        ((TableFile.decode (TableFile.encode s.catalogs.rows)).mapError .unreadable, (readBoth a.directory h).2) := by
  obtain ⟨place, links, entered, still, change, leaves, content, reads⟩ :=
    readTable_of_written CatalogEntry sound (fun place links entered => (clear place links entered).1)
      plainName_catalogFile written
  have away {other : String} (table : other ≠ catalogFile) (aside : other ≠ asideName catalogFile a.owner) :
      place ++ [other] ∉ [place ++ [asideName catalogFile a.owner], place ++ [catalogFile]] := by
    simp [table, aside]
  have noTrack := away (show trackFile ≠ catalogFile by decide) (asideName_ne (by decide)).symm
  have clearTrack := (clear place links entered).2
  have tracks : (readTable a.directory trackFile h' : Except StoreFault (List TrackEntry)) =
      readTable a.directory trackFile h :=
    readTable_changed sound change leaves entered plainName_trackFile (by decide) clearTrack.table noTrack
  refine ⟨change.sound, place, links, entered, still, ?_, content, change.content? noTrack, ?_⟩
  · exact clearTrack.changed change noTrack (away (asideName_ne (by decide)) asideName_apart.symm)
  · rw [readBoth, readBoth, reads, tracks]

/-- A reset that fails after the catalog was written leaves an empty catalog and the tracks. -/
theorem readBoth_of_writeBoth_failed (sound : h.Sound) (clear : ClearFor a h)
    (written : (writeCatalogs a.directory a.owner {} h).1 = .ok ())
    (failed : writeBoth a.directory a.owner {} h = (.error f, h')) :
    readBoth a.directory h' = (.ok [], (readBoth a.directory h).2) := by
  rcases made : writeCatalogs a.directory a.owner {} h with ⟨outcome, h₁⟩
  rw [made] at written
  cases written
  rw [writeBoth, made] at failed
  obtain ⟨sound₁, place, links, entered, still, clear', content, -, empty⟩ := writeCatalogs_written sound clear made
  have same : readBoth a.directory h' = readBoth a.directory h₁ := by
    refine readBoth_of_failed sound₁ plainName_trackFile (fun place' links' entered' => ?_) failed
    rw [still] at entered'
    cases entered'
    exact ⟨clear', by simpa [content] using clear'.table⟩
  rw [same, empty]
  rfl

theorem readBoth_of_writeFor_failed {s : Store} (sound : h.Sound) (clear : ClearFor a h)
    (applied : a.tables.apply c = .ok s) (failed : writeFor c a.directory a.owner s h = (.error f, h')) :
    (Empties c a h → readBoth a.directory h' = (.ok [], (readBoth a.directory h).2))
      ∧ (¬ Empties c a h → readBoth a.directory h' = readBoth a.directory h) := by
  -- One file alone is replaced whole or not at all.
  have catalogs {s : Store} {f : StoreFault} {h' : Host} (refused : writeCatalogs a.directory a.owner s h = (.error f, h')) :
      readBoth a.directory h' = readBoth a.directory h :=
    readBoth_of_failed sound plainName_catalogFile
      (fun place links entered => ⟨(clear place links entered).1, clear.noLink entered⟩) refused
  have tracks {s : Store} {f : StoreFault} {h' : Host} (refused : writeTracks a.directory a.owner s h = (.error f, h')) :
      readBoth a.directory h' = readBoth a.directory h :=
    readBoth_of_failed sound plainName_trackFile
      (fun place links entered => ⟨(clear place links entered).2, clear.noLink entered⟩) refused
  cases c with
  | putCatalog | deleteCatalog =>
    refine ⟨fun empties => ?_, fun _ => catalogs failed⟩
    cases empties.1
  | putTrack | deleteTrack =>
    refine ⟨fun empties => ?_, fun _ => tracks failed⟩
    cases empties.1
  | reset =>
    cases applied
    by_cases written : (writeCatalogs a.directory a.owner {} h).1 = .ok ()
    · have after := readBoth_of_writeBoth_failed sound clear written failed
      refine ⟨fun _ => after, fun full => ?_⟩
      have empty : (readBoth a.directory h).1 = .ok [] := by simpa [Empties, written] using full
      rw [after, ← empty]
    · refine ⟨fun empties => absurd empties.2.1 written, fun _ => ?_⟩
      rw [writeFor, writeBoth] at failed
      rcases refused : writeCatalogs a.directory a.owner {} h with ⟨outcome, h₁⟩
      rw [refused] at failed written
      cases outcome with
      | ok => exact absurd rfl written
      | error f =>
        cases failed
        exact catalogs refused

/-- A change that fails keeps the tables in memory and what the files read as, so that nothing is lost when
the directory is opened again, unless it is a reset that emptied the catalog first: that loses its rows. -/
theorem change_failed (sound : h.Sound) (clear : ClearFor a h) (failed : change c (a, h) = (.error f, a', h')) :
    a' = a ∧ (readBoth a.directory h' = readBoth a.directory h ↔ ¬ Empties c a h)
      ∧ (Empties c a h → readBoth a.directory h' = (.ok [], (readBoth a.directory h).2))
      ∧ (¬ Empties c a h → load a.directory h' = load a.directory h) := by
  rw [change] at failed
  cases applied : a.tables.apply c with
  | error f =>
    rw [applied] at failed
    cases failed
    have full : ¬ Empties c a h := by
      rintro ⟨rfl, -⟩
      cases applied
    exact ⟨rfl, ⟨fun _ => full, fun _ => rfl⟩, fun empties => absurd empties full, fun _ => rfl⟩
  | ok tables =>
    rw [applied] at failed
    dsimp only at failed
    rcases made : writeFor c a.directory a.owner tables h with ⟨outcome, h₁⟩
    rw [made] at failed
    cases outcome with
    | ok => cases failed
    | error f =>
      cases failed
      obtain ⟨emptied, same⟩ := readBoth_of_writeFor_failed sound clear applied made
      refine ⟨rfl, ⟨fun unchanged empties => ?_, same⟩, emptied, fun full => load_congr (same full)⟩
      rw [emptied empties] at unchanged
      exact empties.2.2 (congrArg Prod.fst unchanged).symm

/-- A directory in place of the track file stops every reset, but only when the catalog is emptied. -/
theorem reset_blocked {place : Location} {links : Nat} {node : Node} (sound : h.Sound) (clear : ClearFor a h)
    (entered : h.enter a.directory = .ok (place, links))
    (walkable : Walkable (joinPath a.directory (asideName catalogFile a.owner)))
    (short : (asideName catalogFile a.owner).utf8ByteSize ≤ maxName)
    (free : h.nodeOf? (place ++ [asideName catalogFile a.owner]) = none) (home : h.node? place = some node)
    (writable : node.permissions &&& 0o200 ≠ 0) (noDirectory : h.content? (place ++ [catalogFile]) ≠ some .directory)
    (blocked : h.content? (place ++ [trackFile]) = some .directory) :
    (writeCatalogs a.directory a.owner {} h).1 = .ok () ∧ ∃ f h', change .reset (a, h) = (.error f, a, h')
      ∧ readBoth a.directory h' = (.ok [], (readBoth a.directory h).2) := by
  have written := writeTable_done sound entered plainName_catalogFile (clear place links entered).1 walkable short free
    home writable noDirectory (TableFile.encode ({} : Store).catalogs.rows)
  refine ⟨written, ?_⟩
  rcases made : writeCatalogs a.directory a.owner {} h with ⟨outcome, h₁⟩
  obtain rfl : outcome = .ok () := by
    change (writeCatalogs a.directory a.owner {} h).1 = _ at written
    rw [made] at written
    exact written
  obtain ⟨sound₁, place', links', entered', still, clear', -, same, -⟩ := writeCatalogs_written sound clear made
  rw [entered] at entered'
  cases entered'
  have outcome := writeTable_outcome sound₁ still plainName_trackFile clear' (TableFile.encode ({} : Store).tracks.rows)
  rcases refused : writeTracks a.directory a.owner {} h₁ with ⟨result, h₂⟩
  rw [← writeTracks, refused] at outcome
  cases result with
  | error f =>
    have both : writeBoth a.directory a.owner {} h = (.error f, h₂) := by rw [writeBoth, made, ← refused]
    refine ⟨f, h₂, ?_, readBoth_of_writeBoth_failed sound clear written both⟩
    have applied : a.tables.apply .reset = .ok {} := rfl
    rw [change, applied]
    dsimp only
    rw [writeFor, both]
  | ok =>
    cases outcome with
    | replaced h' permissions change leaves => exact absurd (same.trans blocked) leaves.2.1

end Change

section Blocked

def blocked : Host where
  names := [([], 0), (["d"], 1), (["d", catalogFile], 2), (["d", trackFile], 3)]
  nodes := [⟨.directory, 0o755⟩, ⟨.directory, 0o755⟩, ⟨.file (TableFile.encode [CatalogEntry.ofKey "CD1"]), 0o644⟩,
    ⟨.directory, 0o755⟩]

def shelf : Archive where
  directory := "d"
  owner := 7
  tables := { catalogs := ⟨[CatalogEntry.ofKey "CD1"], List.pairwise_singleton _ _⟩ }
  lock := 0

theorem sound_blocked : blocked.Sound := Sound.of_names (by decide) (by decide) (by decide)

theorem enter_blocked : blocked.enter shelf.directory = .ok (["d"], maxLinks) :=
  enter_of_plain ⟨by decide, by decide, by decide, by decide, by decide⟩ (by decide) (by decide)

theorem clear_blocked : ClearFor shelf blocked := by
  intro place links entered
  rw [enter_blocked] at entered
  cases entered
  have file : blocked.content? (["d"] ++ [catalogFile]) =
      some (.file (TableFile.encode [CatalogEntry.ofKey "CD1"])) := by rfl
  have directory : blocked.content? (["d"] ++ [trackFile]) = some .directory := by decide
  have noCatalog : blocked.node? (["d"] ++ [asideName catalogFile shelf.owner]) = none := by decide
  have noTrack : blocked.node? (["d"] ++ [asideName trackFile shelf.owner]) = none := by decide
  refine ⟨⟨fun target link => ?_, fun node found => ?_⟩, ⟨fun target link => ?_, fun node found => ?_⟩⟩
  · rw [file] at link
    cases link
  · rw [noCatalog] at found
    cases found
  · rw [directory] at link
    cases link
  · rw [noTrack] at found
    cases found

theorem readBoth_blocked : (readBoth shelf.directory blocked).1 = .ok [CatalogEntry.ofKey "CD1"] := by
  have walkable : Walkable (joinPath shelf.directory catalogFile) :=
    walkable_joinPath plainName_catalogFile (by decide) (by decide)
  have walked := walk_of_enter enter_blocked plainName_catalogFile walkable (by decide) true fun _ =>
    (clear_blocked _ _ enter_blocked).1.table
  have sized : (CatalogEntry.ofKey "CD1").Sized := ⟨by decide, by decide, by decide, by decide⟩
  have rows : TableFile.decode (TableFile.encode [CatalogEntry.ofKey "CD1"]) = .ok [CatalogEntry.ofKey "CD1"] := by
    refine TableFile.decode_encode (by decide) fun row h => ?_
    rw [List.mem_singleton.1 h]
    exact sized.readsBack
  have found : blocked.node? (["d"] ++ [catalogFile]) =
      some ⟨.file (TableFile.encode [CatalogEntry.ofKey "CD1"]), 0o644⟩ := by rfl
  rw [readBoth, readTable_eq sound_blocked walked, found, rowsAt]
  simp only [show allows ⟨.file (TableFile.encode [CatalogEntry.ofKey "CD1"]), 0o644⟩ .read = true by rfl,
    not_true_eq_false, ↓reduceIte, rows]
  rfl

theorem reset_shelf : Empties .reset shelf blocked ∧ ∃ f h', change .reset (shelf, blocked) = (.error f, shelf, h')
    ∧ readBoth shelf.directory h' = (.ok [], (readBoth shelf.directory blocked).2) := by
  have walkable : Walkable (joinPath shelf.directory (asideName catalogFile shelf.owner)) :=
    walkable_joinPath (plainName_asideName plainName_catalogFile shelf.owner) (by decide) (by decide)
  have home : blocked.node? ["d"] = some ⟨.directory, 0o755⟩ := by decide
  obtain ⟨written, failed⟩ := reset_blocked sound_blocked clear_blocked enter_blocked
    walkable (by decide) (by decide) home (by decide) (by decide) (by decide)
  refine ⟨⟨rfl, written, ?_⟩, failed⟩
  rw [readBoth_blocked]
  exact fun same => by cases same

/-- The reset of the shelf fails, and the disc is gone from its file. -/
theorem change_failed_blocked :
    ∃ f h', change .reset (shelf, blocked) = (.error f, shelf, h')
      ∧ (readBoth shelf.directory blocked).1 = .ok shelf.tables.catalogs.rows
      ∧ (readBoth shelf.directory h').1 = .ok [] := by
  obtain ⟨empties, f, h', failed, -⟩ := reset_shelf
  obtain ⟨-, -, emptied, -⟩ := change_failed sound_blocked clear_blocked failed
  exact ⟨f, h', failed, readBoth_blocked, by rw [emptied empties]⟩

/-- Not every failed change keeps what the files read as. -/
theorem not_change_failed_keeps :
    ¬ ∀ (a a' : Archive) (h h' : Host) (c : Change) (f : StoreFault), h.Sound → ClearFor a h →
      change c (a, h) = (.error f, a', h') → readBoth a.directory h' = readBoth a.directory h := by
  intro keeps
  obtain ⟨-, f, h', failed, emptied⟩ := reset_shelf
  have same := keeps shelf shelf blocked h' .reset f sound_blocked clear_blocked failed
  rw [emptied, Prod.ext_iff, readBoth_blocked] at same
  cases same.1

end Blocked

end Archive

end DiscCatalog
