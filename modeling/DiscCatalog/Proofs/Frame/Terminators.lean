import DiscCatalog.Proofs.Frame.RoundTrip

namespace DiscCatalog

namespace Slot

def offset : Slot → Nat
  | catalog => Frame.headerSize
  | title => Frame.headerSize + catalog.width
  | kind => Frame.headerSize + catalog.width + title.width
  | artist => Frame.headerSize + catalog.width + title.width + kind.width
  | trackCatalog => Frame.headerSize + CatalogEntry.frameSize
  | trackText => Frame.headerSize + CatalogEntry.frameSize + trackCatalog.width + 4
  | diagnostic => Frame.headerSize + CatalogEntry.frameSize + TrackEntry.frameSize

def block (s : Slot) (frame : List UInt8) : List UInt8 := (frame.drop s.offset).take s.width

theorem length_block {frame : List UInt8} (h : frame.length = Frame.size) (s : Slot) :
    (s.block frame).length = s.width := by
  have room : s.offset + s.width ≤ Frame.size := by cases s <;> decide
  rw [block, List.length_take, List.length_drop, h]
  omega

/-- A text that was read fits its slot again exactly if the slot ended in a NUL. -/
theorem fits_iff_of_read {s : Slot} {bytes : List UInt8} {text : String} (length : bytes.length = s.width)
    (h : s.read bytes = .ok text) : s.Fits text ↔ 0 ∈ bytes := by
  have plain := not_mem_of_read h
  have size : text.utf8ByteSize = (bytes.takeWhile (· ≠ 0)).length := by
    rw [← Text.length_bytes, read_eq_ok_iff.1 h]
  constructor
  · rintro ⟨short, -⟩
    by_contra none
    have whole : bytes.takeWhile (· ≠ 0) = bytes := by
      rw [List.takeWhile_eq_self_iff]
      intro b hb
      have nonzero : b ≠ 0 := fun hz => none (hz ▸ hb)
      simpa using nonzero
    rw [size, whole, length, width] at short
    omega
  · intro ends
    refine ⟨?_, plain⟩
    have part : (bytes.takeWhile (· ≠ 0)).length < bytes.length := by
      refine lt_of_le_of_ne (List.takeWhile_prefix _).length_le fun same => ?_
      have whole := (List.takeWhile_prefix (l := bytes) (fun b : UInt8 => decide (b ≠ 0))).eq_of_length same
      have := List.mem_takeWhile_imp (whole.symm ▸ ends)
      simp at this
    rw [length, width, ← size] at part
    omega

end Slot

theorem CatalogEntry.ofBlock_eq_ok {part : List UInt8} {e : CatalogEntry} (h : ofBlock part = .ok e) :
    Slot.catalog.read (part.take Slot.catalog.width) = .ok e.catalog
      ∧ Slot.title.read ((part.drop Slot.catalog.width).take Slot.title.width) = .ok e.title
      ∧ Slot.kind.read (((part.drop Slot.catalog.width).drop Slot.title.width).take Slot.kind.width) = .ok e.kind
      ∧ Slot.artist.read ((((part.drop Slot.catalog.width).drop Slot.title.width).drop Slot.kind.width).take
          Slot.artist.width) = .ok e.artist := by
  obtain ⟨catalog, hc, h⟩ := of_bind_eq_ok h
  obtain ⟨title, ht, h⟩ := of_bind_eq_ok h
  obtain ⟨kind, hk, h⟩ := of_bind_eq_ok h
  obtain ⟨artist, ha, h⟩ := of_bind_eq_ok h
  cases h
  exact ⟨hc, ht, hk, ha⟩

theorem TrackEntry.ofBlock_eq_ok {part : List UInt8} {e : TrackEntry} (h : ofBlock part = .ok e) :
    Slot.trackCatalog.read (part.take Slot.trackCatalog.width) = .ok e.catalog
      ∧ Slot.trackText.read (((part.drop Slot.trackCatalog.width).drop 4).take Slot.trackText.width) = .ok e.text := by
  obtain ⟨catalog, hc, h⟩ := of_bind_eq_ok h
  obtain ⟨text, ht, h⟩ := of_bind_eq_ok h
  cases h
  exact ⟨hc, ht⟩

namespace Message

theorem decode_eq_ok {frame : List UInt8} {m : Message} (h : decode frame = .ok m) :
    frame.length = Frame.size
      ∧ CatalogEntry.ofBlock ((frame.drop Frame.headerSize).take CatalogEntry.frameSize) = .ok m.catalog
      ∧ TrackEntry.ofBlock (((frame.drop Frame.headerSize).drop CatalogEntry.frameSize).take TrackEntry.frameSize)
          = .ok m.track := by
  unfold decode at h
  dsimp only at h
  split at h
  · cases h
  next size =>
  split at h
  · cases h
  split at h
  · cases h
  split at h
  case h_2 => cases h
  next operation _ =>
  split at h
  case h_2 => cases h
  next status _ =>
  obtain ⟨catalog, hc, h⟩ := of_bind_eq_ok h
  obtain ⟨track, ht, h⟩ := of_bind_eq_ok h
  obtain ⟨diagnostic, -, h⟩ := of_bind_eq_ok h
  cases h
  exact ⟨not_not.1 size, hc, ht⟩

theorem slots_of_decode {frame : List UInt8} {m : Message} (h : decode frame = .ok m) :
    (m.catalog.Encodes ↔ ∀ s ∈ [Slot.catalog, .title, .kind, .artist], 0 ∈ s.block frame)
      ∧ (m.track.Encodes ↔ ∀ s ∈ [Slot.trackCatalog, .trackText], 0 ∈ s.block frame) := by
  obtain ⟨size, catalog, track⟩ := decode_eq_ok h
  obtain ⟨hc, ht, hk, ha⟩ := CatalogEntry.ofBlock_eq_ok catalog
  obtain ⟨hd, hx⟩ := TrackEntry.ofBlock_eq_ok track
  simp only [List.drop_take, List.take_take, List.drop_drop] at hc ht hk ha hd hx
  have fits {s : Slot} {text : String} (read : s.read (s.block frame) = .ok text) :
      s.Fits text ↔ 0 ∈ s.block frame := Slot.fits_iff_of_read (Slot.length_block size s) read
  rw [CatalogEntry.encodes_iff, TrackEntry.encodes_iff]
  simp only [CatalogEntry.texts, TrackEntry.texts, List.forall_mem_cons, List.not_mem_nil, false_imp_iff,
    implies_true, and_true, fits hc, fits ht, fits hk, fits ha, fits hd, fits hx]

end Message

end DiscCatalog
