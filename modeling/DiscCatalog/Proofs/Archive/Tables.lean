import DiscCatalog.Archive
import DiscCatalog.Proofs.Host.Changes

namespace DiscCatalog

namespace Host

variable {h h' : Host} {directory name : String} {place : Location} {links : Nat}

def Leaf (h : Host) (place : Location) : Prop :=
  h.content? place ≠ some .directory ∧ ∀ target, h.content? place ≠ some (.link target)

theorem Changed.retains {places : List Location} (change : Changed places h h') (leaves : ∀ q ∈ places, h.Leaf q) :
    h.Retains h' := by
  intro q content kind found
  by_cases hq : q ∈ places
  · obtain rfl | ⟨target, rfl⟩ := kind
    · exact absurd found (leaves q hq).1
    · exact absurd found ((leaves q hq).2 target)
  · rw [change.content? hq, found]

theorem walk_of_not_walkable {path : String} (none : ¬ Walkable path) :
    ∃ e, ∀ (h : Host) (follow : Bool), h.walk follow path = .error e := by
  unfold walk
  by_cases some : path = ""
  · exact ⟨.noEntry, fun h follow => if_pos some⟩
  · by_cases nul : '\x00' ∈ path.toList
    · refine ⟨.invalid, fun h follow => ?_⟩
      rw [if_neg some, if_pos nul]
    · refine ⟨.nameTooLong, fun h follow => ?_⟩
      rw [if_neg some, if_neg nul, if_pos (Nat.not_le.1 fun short => none ⟨some, nul, short⟩)]

end Host

namespace Archive

variable {ρ : Type} [TableFile.RowForm ρ] {h h' : Host} {directory file : String} {owner : Nat} {place : Location}
  {links : Nat}

theorem plainName_catalogFile : PlainName catalogFile := ⟨by decide, by decide, by decide, by decide, by decide⟩

theorem plainName_trackFile : PlainName trackFile := ⟨by decide, by decide, by decide, by decide, by decide⟩

theorem plainName_lockFile : PlainName lockFile := ⟨by decide, by decide, by decide, by decide, by decide⟩

theorem utf8ByteSize_lt_asideName {name : String} : name.utf8ByteSize < (asideName name owner).utf8ByteSize := by
  have dot : ".".utf8ByteSize = 1 := rfl
  simp only [asideName, String.utf8ByteSize_append]
  omega

theorem asideName_ne_self {name : String} : asideName name owner ≠ name := by
  intro same
  have size : name.utf8ByteSize < (asideName name owner).utf8ByteSize := utf8ByteSize_lt_asideName
  rw [same] at size
  exact Nat.lt_irrefl _ size

theorem asideName_ne {name other : String} (last : other.toList.getLast? ≠ some 'p') : asideName name owner ≠ other := by
  rintro rfl
  refine last ?_
  rw [asideName, String.toList_append, List.getLast?_append, String.toList_append, List.getLast?_append]
  rfl

theorem asideName_apart : asideName catalogFile owner ≠ asideName trackFile owner := by
  intro same
  have first := congrArg (fun s : String => s.toList.head?) same
  simp [asideName, catalogFile, trackFile, String.toList_append] at first

def rowsAt (node? : Option Node) : Except StoreFault (List ρ) :=
  match node? with
  | none => .ok []
  | some node =>
    if ¬ Host.allows node .read then .error (storeFault .accessDenied)
    else
      let content : Except StoreFault (List UInt8) :=
        match node.content with
        | .directory => .error (.unreadable (.io (.os .isDirectory)))
        | .file bytes => .ok bytes
        | .pipe buffer => .ok buffer.content
        | _ => .ok []
      match content with
      | .error fault => .error fault
      | .ok bytes => (TableFile.decode bytes).mapError .unreadable

theorem readTable_eq (sound : h.Sound) (walked : h.walk true (joinPath directory file) = .ok place) :
    (readTable directory file h : Except StoreFault (List ρ)) = rowsAt (h.node? place) := by
  unfold readTable Host.readFile rowsAt
  cases at? : h.nodeOf? place with
  | none =>
    rw [Host.find_of_walk_none walked at?, Host.node?, at?]
    rfl
  | some number =>
    obtain ⟨node, there, found⟩ := sound.exists_node at?
    rw [Host.find_of_walk walked at? there, found]
    dsimp only
    cases Host.allows node .read with
    | false => rfl
    | true =>
      simp only [not_true_eq_false, ↓reduceIte]
      cases node.content with
      | directory => rfl
      | file bytes =>
        dsimp only
        cases (TableFile.decode bytes : Except TableFault (List ρ)) <;> rfl
      | pipe buffer =>
        dsimp only
        cases (TableFile.decode buffer.content : Except TableFault (List ρ)) <;> rfl
      | link | sink | full =>
        dsimp only
        cases (TableFile.decode [] : Except TableFault (List ρ)) <;> rfl

theorem readTable_changed {places : List Location} (sound : h.Sound) (change : Host.Changed places h h')
    (leaves : ∀ q ∈ places, h.Leaf q) (entered : h.enter directory = .ok (place, links)) (plain : PlainName file)
    (short : file.utf8ByteSize ≤ Host.maxName)
    (noLink : ∀ target, h.content? (place ++ [file]) ≠ some (.link target)) (away : place ++ [file] ∉ places) :
    (readTable directory file h' : Except StoreFault (List ρ)) = readTable directory file h := by
  by_cases walkable : Host.Walkable (joinPath directory file)
  · have still := Host.enter_retained (change.retains leaves) change.directory entered
    have walked := Host.walk_of_enter entered plain walkable short true fun _ => noLink
    have walked' := Host.walk_of_enter still plain walkable short true fun _ => by rwa [change.content? away]
    rw [readTable_eq sound walked, readTable_eq change.sound walked', change.node? _ away]
  · obtain ⟨e, nowhere⟩ := Host.walk_of_not_walkable walkable
    unfold readTable Host.find
    simp only [nowhere, bind, Except.bind]

def readBoth (directory : String) (h : Host) : Except StoreFault (List CatalogEntry) × Except StoreFault (List TrackEntry) :=
  (readTable directory catalogFile h, readTable directory trackFile h)

theorem load_congr (same : readBoth directory h' = readBoth directory h) : load directory h' = load directory h := by
  have catalogs := congrArg Prod.fst same
  have tracks := congrArg Prod.snd same
  simp only [readBoth] at catalogs tracks
  rw [load, load, catalogs, tracks]

end Archive

end DiscCatalog
