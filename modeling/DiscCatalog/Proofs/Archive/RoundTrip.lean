import DiscCatalog.Archive.TableFile
import DiscCatalog.Proofs.Text

namespace DiscCatalog

namespace TableFile

/-- The numbers that fit into eight bytes: no text and no table of a machine is larger. -/
def limit : Nat := Nat.pow 2 64

theorem readBlock_append (block rest : List UInt8) : readBlock block.length (block ++ rest) = .ok (block, rest) := by
  rw [readBlock, if_pos (by simp), List.take_left, List.drop_left]

theorem readCount_append {n : Nat} (small : n < limit) (rest : List UInt8) :
    readCount (writeCount n ++ rest) = .ok (n, rest) := by
  have eight := readBlock_append (LittleEndian.encode 8 n) rest
  have exact : n % Nat.pow 256 8 = n := Nat.mod_eq_of_lt small
  rw [LittleEndian.length_encode] at eight
  rw [readCount, writeCount, eight]
  change Except.ok (LittleEndian.decode (LittleEndian.encode 8 n), rest) = _
  rw [LittleEndian.decode_encode, exact]

theorem readText_append {s : String} (small : s.utf8ByteSize < limit) (rest : List UInt8) :
    readText (writeText s ++ rest) = .ok (s, rest) := by
  have block := readBlock_append (Text.bytes s) rest
  rw [Text.length_bytes] at block
  rw [readText, writeText, List.append_assoc]
  simp only [readCount_append small, bind, Except.bind, block, Text.decode_eq_ok_iff.2 rfl]
  rfl

def ReadsBack {ρ : Type} [RowForm ρ] (row : ρ) : Prop :=
  ∀ rest, RowForm.read (RowForm.write row ++ rest) = .ok (row, rest)

theorem readRows_append {ρ : Type} [RowForm ρ] {rows : List ρ} (back : ∀ row ∈ rows, ReadsBack row)
    (rest : List UInt8) : readRows rows.length (rows.flatMap RowForm.write ++ rest) = .ok (rows, rest) := by
  induction rows with
  | nil => rfl
  | cons row rows ih =>
    have later := ih fun r hr => back r (List.mem_cons_of_mem _ hr)
    rw [List.length_cons, List.flatMap_cons, List.append_assoc, readRows]
    simp only [back row List.mem_cons_self _, bind, Except.bind, later]
    rfl

theorem decode_encode {ρ : Type} [RowForm ρ] {rows : List ρ} (few : rows.length < limit)
    (back : ∀ row ∈ rows, ReadsBack row) : decode (encode rows) = .ok rows := by
  have all := readRows_append back []
  rw [List.append_nil] at all
  rw [decode, encode]
  simp only [readCount_append few, bind, Except.bind, all]
  rfl

theorem lt_of_readCount {bs rest : List UInt8} {n : Nat} (h : readCount bs = .ok (n, rest)) : n < limit := by
  obtain ⟨⟨block, rest'⟩, read, h⟩ := of_bind_eq_ok h
  cases h
  have eight : block.length = 8 := by
    rw [readBlock] at read
    split at read
    · next enough =>
      cases read
      rw [List.length_take, Nat.min_eq_left enough]
    · cases read
  have small := LittleEndian.decode_lt block
  rwa [eight] at small

theorem lt_of_readText {bs rest : List UInt8} {s : String} (h : readText bs = .ok (s, rest)) :
    s.utf8ByteSize < limit := by
  obtain ⟨⟨size, rest₁⟩, count, h⟩ := of_bind_eq_ok h
  obtain ⟨⟨block, rest₂⟩, read, h⟩ := of_bind_eq_ok h
  have small := lt_of_readCount count
  have length : block.length ≤ size := by
    rw [readBlock] at read
    split at read
    · cases read; exact List.length_take_le _ _
    · cases read
  dsimp only at h
  cases decoded : Text.decode block with
  | error fault => rw [decoded] at h; cases h
  | ok text =>
    rw [decoded] at h
    cases h
    rw [← Text.length_bytes, Text.decode_eq_ok_iff.1 decoded]
    exact Nat.lt_of_le_of_lt length small

/-- What holds of every row that can be read holds of the rows of a table file. -/
theorem forall_of_readRows {ρ : Type} [RowForm ρ] {P : ρ → Prop}
    (each : ∀ bs row rest, RowForm.read bs = .ok (row, rest) → P row) {count : Nat} {bs rest : List UInt8}
    {rows : List ρ} (h : readRows count bs = .ok (rows, rest)) : ∀ row ∈ rows, P row := by
  induction count generalizing bs rows with
  | zero => cases h; simp
  | succ count ih =>
    obtain ⟨⟨row, rest₁⟩, first, h⟩ := of_bind_eq_ok h
    obtain ⟨⟨later, rest₂⟩, others, h⟩ := of_bind_eq_ok h
    cases h
    exact List.forall_mem_cons.2 ⟨each bs row rest₁ first, ih others⟩

theorem forall_of_decode {ρ : Type} [RowForm ρ] {P : ρ → Prop}
    (each : ∀ bs row rest, RowForm.read bs = .ok (row, rest) → P row) {bs : List UInt8} {rows : List ρ}
    (h : decode bs = .ok rows) : ∀ row ∈ rows, P row := by
  obtain ⟨⟨count, rest₁⟩, -, h⟩ := of_bind_eq_ok h
  obtain ⟨⟨all, rest₂⟩, read, h⟩ := of_bind_eq_ok h
  cases h
  exact forall_of_readRows each read

end TableFile

open TableFile

/-- The texts of a row have sizes that can be written. -/
structure CatalogEntry.Sized (e : CatalogEntry) : Prop where
  catalog : e.catalog.utf8ByteSize < limit
  title : e.title.utf8ByteSize < limit
  kind : e.kind.utf8ByteSize < limit
  artist : e.artist.utf8ByteSize < limit

structure TrackEntry.Sized (e : TrackEntry) : Prop where
  catalog : e.catalog.utf8ByteSize < limit
  text : e.text.utf8ByteSize < limit

theorem CatalogEntry.Sized.readsBack {e : CatalogEntry} (h : e.Sized) : ReadsBack e := by
  intro rest
  simp only [RowForm.write, RowForm.read, List.append_assoc, readText_append h.catalog, readText_append h.title,
    readText_append h.kind, readText_append h.artist, bind, Except.bind]
  rfl

theorem TrackEntry.Sized.readsBack {e : TrackEntry} (h : e.Sized) : ReadsBack e := by
  intro rest
  have word := readBlock_append (LittleEndian.ofInt32 e.number) (writeText e.text ++ rest)
  have four : (LittleEndian.ofInt32 e.number).length = 4 := LittleEndian.length_encode 4 _
  rw [four] at word
  simp only [RowForm.write, RowForm.read, List.append_assoc, readText_append h.catalog, word, readText_append h.text,
    LittleEndian.toInt32_ofInt32, bind, Except.bind]
  rfl

theorem CatalogEntry.sized_of_read {bs rest : List UInt8} {e : CatalogEntry}
    (h : RowForm.read bs = .ok (e, rest)) : e.Sized := by
  obtain ⟨⟨catalog, bs⟩, readCatalog, h⟩ := of_bind_eq_ok h
  obtain ⟨⟨title, bs⟩, readTitle, h⟩ := of_bind_eq_ok h
  obtain ⟨⟨kind, bs⟩, readKind, h⟩ := of_bind_eq_ok h
  obtain ⟨⟨artist, bs⟩, readArtist, h⟩ := of_bind_eq_ok h
  cases h
  exact ⟨lt_of_readText readCatalog, lt_of_readText readTitle, lt_of_readText readKind, lt_of_readText readArtist⟩

theorem TrackEntry.sized_of_read {bs rest : List UInt8} {e : TrackEntry}
    (h : RowForm.read bs = .ok (e, rest)) : e.Sized := by
  obtain ⟨⟨catalog, bs⟩, readCatalog, h⟩ := of_bind_eq_ok h
  obtain ⟨⟨number, bs⟩, -, h⟩ := of_bind_eq_ok h
  obtain ⟨⟨text, bs⟩, readText, h⟩ := of_bind_eq_ok h
  cases h
  exact ⟨lt_of_readText readCatalog, lt_of_readText readText⟩

end DiscCatalog
