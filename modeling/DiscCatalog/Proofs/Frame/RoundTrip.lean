import DiscCatalog.Frame
import DiscCatalog.Proofs.Frame.Slots

namespace DiscCatalog

namespace Slot

def firstMisfit? (texts : List (Slot × String)) : Option FrameFault :=
  texts.findSome? fun t => t.1.misfit? t.2

theorem firstMisfit?_eq_none_iff {texts : List (Slot × String)} :
    firstMisfit? texts = none ↔ ∀ t ∈ texts, t.1.Fits t.2 := by
  simp only [firstMisfit?, List.findSome?_eq_none_iff, misfit?_eq_none_iff]

theorem firstMisfit?_append (texts others : List (Slot × String)) :
    firstMisfit? (texts ++ others) = (firstMisfit? texts).or (firstMisfit? others) :=
  List.findSome?_append

end Slot

namespace CatalogEntry

def texts (e : CatalogEntry) : List (Slot × String) :=
  [(.catalog, e.catalog), (.title, e.title), (.kind, e.kind), (.artist, e.artist)]

/-- An entry that a frame can carry. -/
def Encodes (e : CatalogEntry) : Prop := ∃ bytes, e.toBytes = .ok bytes

def filled (e : CatalogEntry) : List UInt8 :=
  Slot.catalog.filled e.catalog ++ Slot.title.filled e.title ++ Slot.kind.filled e.kind
    ++ Slot.artist.filled e.artist

theorem toBytes_eq (e : CatalogEntry) :
    e.toBytes = match Slot.firstMisfit? e.texts with
      | some fault => .error fault
      | none => .ok e.filled := by
  simp only [toBytes, Slot.write_eq, Slot.firstMisfit?, texts, List.findSome?_cons, List.findSome?_nil]
  cases Slot.catalog.misfit? e.catalog with
  | some => rfl
  | none =>
    cases Slot.title.misfit? e.title with
    | some => rfl
    | none =>
      cases Slot.kind.misfit? e.kind with
      | some => rfl
      | none => cases Slot.artist.misfit? e.artist <;> rfl

theorem encodes_iff {e : CatalogEntry} : e.Encodes ↔ ∀ t ∈ e.texts, t.1.Fits t.2 := by
  rw [← Slot.firstMisfit?_eq_none_iff, Encodes, toBytes_eq]
  cases Slot.firstMisfit? e.texts <;> simp

theorem toBytes_of_encodes {e : CatalogEntry} (h : e.Encodes) : e.toBytes = .ok e.filled := by
  rw [toBytes_eq, Slot.firstMisfit?_eq_none_iff.2 (encodes_iff.1 h)]

theorem length_filled {e : CatalogEntry} (h : e.Encodes) : e.filled.length = frameSize := by
  have fits := encodes_iff.1 h
  simp only [texts, List.forall_mem_cons] at fits
  obtain ⟨hc, ht, hk, ha, -⟩ := fits
  simp only [filled, List.length_append, Slot.length_filled hc, Slot.length_filled ht,
    Slot.length_filled hk, Slot.length_filled ha, frameSize]

theorem ofBlock_filled {e : CatalogEntry} (h : e.Encodes) : ofBlock e.filled = .ok e := by
  have fits := encodes_iff.1 h
  simp only [texts, List.forall_mem_cons] at fits
  obtain ⟨hc, ht, hk, ha, -⟩ := fits
  unfold ofBlock filled
  simp only [List.append_assoc]
  rw [List.take_left' (Slot.length_filled hc), List.drop_left' (Slot.length_filled hc),
    List.take_left' (Slot.length_filled ht), List.drop_left' (Slot.length_filled ht),
    List.take_left' (Slot.length_filled hk), List.drop_left' (Slot.length_filled hk),
    List.take_of_length_le (Slot.length_filled ha).le]
  simp only [Slot.read_filled hc, Slot.read_filled ht, Slot.read_filled hk, Slot.read_filled ha]
  rfl

theorem ofBytes_filled {e : CatalogEntry} (h : e.Encodes) : ofBytes e.filled = .ok e := by
  rw [ofBytes, if_pos (length_filled h), ofBlock_filled h]

theorem encodes_empty : ({} : CatalogEntry).Encodes := encodes_iff.2 (by decide)

theorem encodes_ofKey {key : String} : (ofKey key).Encodes ↔ Slot.catalog.Fits key := by
  simp [encodes_iff, texts, ofKey]

end CatalogEntry

namespace TrackEntry

def texts (e : TrackEntry) : List (Slot × String) := [(.trackCatalog, e.catalog), (.trackText, e.text)]

def Encodes (e : TrackEntry) : Prop := ∃ bytes, e.toBytes = .ok bytes

def filled (e : TrackEntry) : List UInt8 :=
  Slot.trackCatalog.filled e.catalog ++ LittleEndian.ofInt32 e.number ++ Slot.trackText.filled e.text

theorem toBytes_eq (e : TrackEntry) :
    e.toBytes = match Slot.firstMisfit? e.texts with
      | some fault => .error fault
      | none => .ok e.filled := by
  simp only [toBytes, Slot.write_eq, Slot.firstMisfit?, texts, List.findSome?_cons, List.findSome?_nil]
  cases Slot.trackCatalog.misfit? e.catalog with
  | some => rfl
  | none => cases Slot.trackText.misfit? e.text <;> rfl

theorem encodes_iff {e : TrackEntry} : e.Encodes ↔ ∀ t ∈ e.texts, t.1.Fits t.2 := by
  rw [← Slot.firstMisfit?_eq_none_iff, Encodes, toBytes_eq]
  cases Slot.firstMisfit? e.texts <;> simp

theorem length_filled {e : TrackEntry} (h : e.Encodes) : e.filled.length = frameSize := by
  have fits := encodes_iff.1 h
  simp only [texts, List.forall_mem_cons] at fits
  obtain ⟨hc, ht, -⟩ := fits
  simp only [filled, List.length_append, Slot.length_filled hc, Slot.length_filled ht, frameSize,
    LittleEndian.ofInt32, LittleEndian.ofUInt32, LittleEndian.length_encode]

theorem ofBlock_filled {e : TrackEntry} (h : e.Encodes) : ofBlock e.filled = .ok e := by
  have fits := encodes_iff.1 h
  simp only [texts, List.forall_mem_cons] at fits
  obtain ⟨hc, ht, -⟩ := fits
  have four : (LittleEndian.ofInt32 e.number).length = 4 := LittleEndian.length_encode 4 _
  unfold ofBlock filled
  simp only [List.append_assoc]
  rw [List.take_left' (Slot.length_filled hc), List.drop_left' (Slot.length_filled hc),
    List.take_left' four, List.drop_left' four, List.take_of_length_le (Slot.length_filled ht).le]
  simp only [Slot.read_filled hc, Slot.read_filled ht, LittleEndian.toInt32_ofInt32]
  rfl

theorem encodes_empty : ({} : TrackEntry).Encodes := encodes_iff.2 (by decide)

theorem encodes_ofKey {key : String} {number : Int32} :
    (ofKey key number).Encodes ↔ Slot.trackCatalog.Fits key := by
  simp [encodes_iff, texts, ofKey]

end TrackEntry

namespace Message

def texts (m : Message) : List (Slot × String) :=
  m.catalog.texts ++ m.track.texts ++ [(.diagnostic, m.diagnostic)]

def misfit? (m : Message) : Option FrameFault := Slot.firstMisfit? m.texts

def Encodes (m : Message) : Prop := ∃ frame, m.encode = .ok frame

def frame (m : Message) : List UInt8 :=
  Frame.header m ++ m.catalog.filled ++ m.track.filled ++ Slot.diagnostic.filled m.diagnostic

theorem encode_eq (m : Message) :
    m.encode = match m.misfit? with
      | some fault => .error fault
      | none => .ok m.frame := by
  unfold encode misfit? texts
  rw [CatalogEntry.toBytes_eq, TrackEntry.toBytes_eq, Slot.write_eq, Slot.firstMisfit?_append,
    Slot.firstMisfit?_append]
  have last : Slot.firstMisfit? [(.diagnostic, m.diagnostic)] = Slot.diagnostic.misfit? m.diagnostic := by
    simp only [Slot.firstMisfit?, List.findSome?_cons, List.findSome?_nil]
    cases Slot.diagnostic.misfit? m.diagnostic <;> rfl
  rw [last]
  cases Slot.firstMisfit? m.catalog.texts with
  | some => rfl
  | none =>
    cases Slot.firstMisfit? m.track.texts with
    | some => rfl
    | none => cases Slot.diagnostic.misfit? m.diagnostic <;> rfl

theorem misfit?_eq_none_iff {m : Message} : m.misfit? = none ↔ m.Encodes := by
  rw [Encodes, encode_eq]
  cases m.misfit? <;> simp

theorem encodes_iff {m : Message} :
    m.Encodes ↔ m.catalog.Encodes ∧ m.track.Encodes ∧ Slot.diagnostic.Fits m.diagnostic := by
  rw [← misfit?_eq_none_iff, misfit?, Slot.firstMisfit?_eq_none_iff, texts, CatalogEntry.encodes_iff,
    TrackEntry.encodes_iff]
  simp only [List.forall_mem_append, List.forall_mem_singleton, and_assoc]

theorem encode_of_encodes {m : Message} (h : m.Encodes) : m.encode = .ok m.frame := by
  rw [encode_eq, misfit?_eq_none_iff.2 h]

theorem length_header (m : Message) : (Frame.header m).length = Frame.headerSize := by
  simp only [Frame.header, List.length_append, LittleEndian.ofUInt32, LittleEndian.length_encode,
    Frame.magic, Frame.headerSize, List.length_cons, List.length_nil]

theorem length_frame {m : Message} (h : m.Encodes) : m.frame.length = Frame.size := by
  obtain ⟨hc, ht, hd⟩ := encodes_iff.1 h
  simp only [frame, List.length_append, length_header, CatalogEntry.length_filled hc,
    TrackEntry.length_filled ht, Slot.length_filled hd, Frame.size]

theorem stamp_frame (m : Message) (origin : UInt32) :
    Frame.stamp m.frame origin = { m with origin }.frame := by
  have parts : m.frame = (Frame.magic ++ LittleEndian.encode 2 Frame.version
        ++ LittleEndian.encode 1 m.operation.tag ++ LittleEndian.encode 1 m.status.tag)
      ++ (LittleEndian.ofUInt32 m.origin
        ++ (m.catalog.filled ++ m.track.filled ++ Slot.diagnostic.filled m.diagnostic)) := by
    simp only [frame, Frame.header, List.append_assoc]
  have eight : (Frame.magic ++ LittleEndian.encode 2 Frame.version
      ++ LittleEndian.encode 1 m.operation.tag ++ LittleEndian.encode 1 m.status.tag).length
      = Frame.originOffset := rfl
  have four : (LittleEndian.ofUInt32 m.origin).length = 4 := LittleEndian.length_encode 4 _
  unfold Frame.stamp
  rw [parts, List.take_left' eight, ← List.drop_drop, List.drop_left' eight, List.drop_left' four]
  simp only [frame, Frame.header, List.append_assoc]

theorem headerOrigin_frame (m : Message) : Frame.headerOrigin m.frame = m.origin := by
  have eight : (Frame.magic ++ LittleEndian.encode 2 Frame.version
      ++ LittleEndian.encode 1 m.operation.tag ++ LittleEndian.encode 1 m.status.tag).length
      = Frame.originOffset := rfl
  have four : (LittleEndian.ofUInt32 m.origin).length = 4 := LittleEndian.length_encode 4 _
  unfold Frame.headerOrigin frame Frame.header
  rw [List.append_assoc, List.append_assoc, List.append_assoc, List.drop_left' eight,
    List.take_left' four, LittleEndian.toUInt32_ofUInt32]

theorem decode_frame {m : Message} (h : m.Encodes) : decode m.frame = .ok m := by
  obtain ⟨hc, ht, hd⟩ := encodes_iff.1 h
  have rest : m.frame = Frame.header m
      ++ (m.catalog.filled ++ (m.track.filled ++ Slot.diagnostic.filled m.diagnostic)) := by
    simp only [frame, List.append_assoc]
  have opened : m.frame = Frame.magic ++ (LittleEndian.encode 2 Frame.version
      ++ (LittleEndian.encode 1 m.operation.tag ++ (LittleEndian.encode 1 m.status.tag
        ++ (LittleEndian.ofUInt32 m.origin
          ++ (m.catalog.filled ++ (m.track.filled ++ Slot.diagnostic.filled m.diagnostic)))))) := by
    simp only [frame, Frame.header, List.append_assoc]
  have magic : m.frame.take 4 = Frame.magic := by rw [opened]; rfl
  have version : LittleEndian.decode ((m.frame.drop 4).take 2) = Frame.version := by rw [opened]; rfl
  have operation : Operation.ofTag? (LittleEndian.decode ((m.frame.drop 6).take 1)) = some m.operation := by
    rw [opened]
    cases m.operation <;> rfl
  have status : Status.ofTag? (LittleEndian.decode ((m.frame.drop 7).take 1)) = some m.status := by
    rw [opened]
    cases m.status <;> rfl
  unfold decode
  rw [if_neg (fun hne => hne (length_frame h)), if_neg (fun hne => hne magic),
    if_neg (fun hne => hne version)]
  simp only [operation, status, headerOrigin_frame]
  rw [rest, List.drop_left' (length_header m), List.take_left' (CatalogEntry.length_filled hc),
    List.drop_left' (CatalogEntry.length_filled hc), List.take_left' (TrackEntry.length_filled ht),
    List.drop_left' (TrackEntry.length_filled ht), List.take_of_length_le (Slot.length_filled hd).le,
    CatalogEntry.ofBlock_filled hc, TrackEntry.ofBlock_filled ht, Slot.read_filled hd]
  rfl

end Message

end DiscCatalog
