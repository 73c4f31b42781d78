import Mathlib
import DiscCatalog.Proofs.Frame.RoundTrip

namespace DiscCatalog

namespace LittleEndian

theorem getElem_encode {width n i : Nat} (h : i < (encode width n).length) :
    (encode width n)[i].toNat = n / 256 ^ i % 256 := by
  induction width generalizing n i with
  | zero => cases h
  | succ width ih =>
    cases i with
    | zero => simp [encode]
    | succ i =>
      rw [Nat.pow_succ', ← Nat.div_div_eq_div_mul]
      exact ih (Nat.lt_of_succ_lt_succ h)

/-- In two's complement a negative number stands for itself and one round of all words. -/
theorem toNat_toUInt32 (n : Int32) : n.toUInt32.toNat = (n.toInt % 2 ^ 32).toNat := by
  have bits : n.toInt = Int.bmod n.toUInt32.toNat (2 ^ 32) := BitVec.toInt_eq_toNat_bmod _
  have round : n.toInt % 2 ^ 32 = n.toUInt32.toNat % 2 ^ 32 := by
    rw [bits]
    exact Int.bmod_emod
  have word : n.toUInt32.toNat < 2 ^ 32 := n.toUInt32.toNat_lt
  omega

end LittleEndian

inductive Field.Content where
  | mark (bytes : List UInt8)
  | number (n : Nat)
  | text (s : Slot) (value : String)

def Field.Content.HeldBy : Field.Content → List UInt8 → Prop
  | .mark bytes, block => block = bytes
  | .number n, block => n < 256 ^ block.length ∧ ∀ i (h : i < block.length), block[i].toNat = n / 256 ^ i % 256
  | .text _ value, block => ∃ padding > 0, block = Text.bytes value ++ List.replicate padding 0

structure Field where
  offset : Nat
  width : Nat
  content : Field.Content

namespace Field

def block (f : Field) (bytes : List UInt8) : List UInt8 := (bytes.drop f.offset).take f.width

def text? (f : Field) : Option (Slot × String) :=
  match f.content with
  | .text s value => some (s, value)
  | _ => none

def LaidOut (bytes : List UInt8) : Nat → List Field → Prop
  | place, [] => place = bytes.length
  | place, f :: fs =>
    f.offset = place ∧ (f.block bytes).length = f.width ∧ f.content.HeldBy (f.block bytes)
      ∧ LaidOut bytes (place + f.width) fs

inductive Takes : Nat → List Field → List UInt8 → Prop
  | nil {place : Nat} : Takes place [] []
  | cons {f : Field} {fs : List Field} {block rest : List UInt8} :
    block.length = f.width → f.content.HeldBy block → Takes (f.offset + f.width) fs rest →
      Takes f.offset (f :: fs) (block ++ rest)

theorem Takes.append {place next : Nat} {fs gs : List Field} {bytes others : List UInt8}
    (first : Takes place fs bytes) (second : Takes next gs others) (meet : next = place + (fs.map width).sum) :
    Takes place (fs ++ gs) (bytes ++ others) := by
  induction first with
  | nil => rwa [meet] at second
  | cons length held _ ih =>
    rw [List.append_assoc]
    refine .cons length held (ih ?_)
    rw [meet, List.map_cons, List.sum_cons, Nat.add_assoc]

theorem laidOut_of_takes {place : Nat} {fields : List Field} {bytes before : List UInt8} (start : before.length = place)
    (h : Takes place fields bytes) : LaidOut (before ++ bytes) place fields := by
  induction h generalizing before with
  | nil => rw [LaidOut, List.append_nil, start]
  | @cons f fs block rest length held _ ih =>
    have here : f.block (before ++ (block ++ rest)) = block := by
      rw [Field.block, ← start, List.drop_left, ← length, List.take_left]
    have onwards : (before ++ block).length = f.offset + f.width := by rw [List.length_append, start, length]
    have others := ih onwards
    rw [List.append_assoc] at others
    exact ⟨rfl, by rw [here, length], by rwa [here], others⟩

theorem Takes.laidOut {fields : List Field} {bytes : List UInt8} (h : Takes 0 fields bytes) : LaidOut bytes 0 fields :=
  laidOut_of_takes List.length_nil h

theorem Takes.single {f : Field} {block : List UInt8} (length : block.length = f.width)
    (held : f.content.HeldBy block) : Takes f.offset [f] block := by
  have taken := Takes.cons length held .nil
  rwa [List.append_nil] at taken

theorem takes_number {n : Nat} (width offset : Nat) (h : n < 256 ^ width) :
    Takes offset [⟨offset, width, .number n⟩] (LittleEndian.encode width n) := by
  have length := LittleEndian.length_encode width n
  refine Takes.single (f := ⟨offset, width, .number n⟩) length ⟨?_, fun i hi => LittleEndian.getElem_encode hi⟩
  rwa [length]

theorem takes_text {s : Slot} {value : String} (offset : Nat) (h : s.Fits value) :
    Takes offset [⟨offset, s.width, .text s value⟩] (s.filled value) := by
  have padding : 0 < s.width - value.utf8ByteSize := by
    have := h.1
    rw [Slot.width]
    omega
  exact Takes.single (f := ⟨offset, s.width, .text s value⟩) (Slot.length_filled h) ⟨_, padding, rfl⟩

end Field

inductive Slot.Unfit (s : Slot) (text : String) : FrameFault → Prop
  | long : s.capacity < text.utf8ByteSize → Unfit s text (.fieldTooLong s.label text.utf8ByteSize s.capacity)
  | nul : text.utf8ByteSize ≤ s.capacity → '\x00' ∈ text.toList → Unfit s text (.embeddedNul s.label)

def Slot.FirstUnfit (texts : List (Slot × String)) (fault : FrameFault) : Prop :=
  ∃ before s text after, texts = before ++ (s, text) :: after ∧ (∀ t ∈ before, t.1.Fits t.2) ∧ s.Unfit text fault

theorem Slot.misfit?_eq_some_iff {s : Slot} {text : String} {fault : FrameFault} :
    s.misfit? text = some fault ↔ s.Unfit text fault := by
  unfold misfit?
  constructor
  · intro h
    split at h
    · next long =>
      cases h
      exact .long long
    · next short =>
      split at h
      · next nul =>
        cases h
        exact .nul (Nat.not_lt.1 short) nul
      · cases h
  · rintro (long | ⟨short, nul⟩)
    · rw [if_pos long]
    · rw [if_neg (Nat.not_lt.2 short), if_pos nul]

theorem Slot.firstMisfit?_eq_some_iff {texts : List (Slot × String)} {fault : FrameFault} :
    firstMisfit? texts = some fault ↔ FirstUnfit texts fault := by
  rw [firstMisfit?, List.findSome?_eq_some_iff]
  constructor
  · rintro ⟨before, ⟨s, text⟩, after, split, found, fits⟩
    exact ⟨before, s, text, after, split, fun t ht => misfit?_eq_none_iff.1 (fits t ht), misfit?_eq_some_iff.1 found⟩
  · rintro ⟨before, s, text, after, split, fits, unfit⟩
    exact ⟨before, (s, text), after, split, misfit?_eq_some_iff.2 unfit, fun t ht => misfit?_eq_none_iff.2 (fits t ht)⟩

section Writing

variable {α : Type}

/-- Writing a value with these fields, and reading it back: it succeeds exactly if every text fits, and
fails with the fault of the first that does not; what it writes is `size` bytes, laid out by the fields,
and `read` makes the value of them again. -/
structure Writes (fields : List Field) (size : Nat) (read : List UInt8 → Except FrameFault α) (value : α)
    (result : Except FrameFault (List UInt8)) : Prop where
  succeeds : (∃ bytes, result = .ok bytes) ↔ ∀ t ∈ fields.filterMap Field.text?, t.1.Fits t.2
  fails : ∀ fault, result = .error fault ↔ Slot.FirstUnfit (fields.filterMap Field.text?) fault
  laid : ∀ bytes, result = .ok bytes → bytes.length = size ∧ Field.LaidOut bytes 0 fields
  inverse : ∀ bytes, result = .ok bytes → read bytes = .ok value

theorem Writes.of_filled {fields : List Field} {size : Nat} {read : List UInt8 → Except FrameFault α} {value : α}
    {result : Except FrameFault (List UInt8)} (texts : List (Slot × String)) (filled : List UInt8)
    (table : fields.filterMap Field.text? = texts)
    (written : result = match Slot.firstMisfit? texts with
      | some fault => .error fault
      | none => .ok filled)
    (sound : (∀ t ∈ texts, t.1.Fits t.2) →
      filled.length = size ∧ Field.LaidOut filled 0 fields ∧ read filled = .ok value) :
    Writes fields size read value result := by
  subst table
  cases found : Slot.firstMisfit? (fields.filterMap Field.text?) with
  | some fault =>
    rw [found] at written
    have misfit : ¬ ∀ t ∈ fields.filterMap Field.text?, t.1.Fits t.2 := by
      rw [← Slot.firstMisfit?_eq_none_iff, found]
      exact Option.some_ne_none _
    refine ⟨iff_of_false ?_ misfit, fun other => ?_, ?_, ?_⟩
    · rintro ⟨bytes, ok⟩
      rw [written] at ok
      cases ok
    · rw [← Slot.firstMisfit?_eq_some_iff, found, written, Except.error.injEq, Option.some.injEq]
    all_goals
      intro bytes ok
      rw [written] at ok
      cases ok
  | none =>
    rw [found] at written
    have fits := Slot.firstMisfit?_eq_none_iff.1 found
    obtain ⟨length, laid, inverse⟩ := sound fits
    refine ⟨iff_of_true ⟨filled, written⟩ fits, fun fault => ?_, ?_, ?_⟩
    · rw [← Slot.firstMisfit?_eq_some_iff, found, written]
      exact iff_of_false (fun h => by cases h) (fun h => by cases h)
    all_goals
      intro bytes ok
      rw [written] at ok
      cases ok
    · exact ⟨length, laid⟩
    · exact inverse

end Writing

/-- The fields of a catalog entry that begins at byte `start`. -/
def CatalogEntry.fields (e : CatalogEntry) (start : Nat) : List Field :=
  [⟨start, 31, .text .catalog e.catalog⟩, ⟨start + 31, 71, .text .title e.title⟩,
    ⟨start + 102, 31, .text .kind e.kind⟩, ⟨start + 133, 71, .text .artist e.artist⟩]

/-- The fields of a track entry that begins at byte `start`. The track number is a signed word. -/
def TrackEntry.fields (e : TrackEntry) (start : Nat) : List Field :=
  [⟨start, 31, .text .trackCatalog e.catalog⟩, ⟨start + 31, 4, .number (e.number.toInt % 2 ^ 32).toNat⟩,
    ⟨start + 35, 71, .text .trackText e.text⟩]

/-- The fields of a message, which opens with the mark and the version. -/
def Message.fields (m : Message) : List Field :=
  [⟨0, 4, .mark [0x43, 0x44, 0x49, 0x50]⟩, ⟨4, 2, .number 1⟩, ⟨6, 1, .number m.operation.tag⟩,
    ⟨7, 1, .number m.status.tag⟩, ⟨8, 4, .number m.origin.toNat⟩]
  ++ m.catalog.fields 12 ++ m.track.fields 216 ++ [⟨322, 81, .text .diagnostic m.diagnostic⟩]

theorem CatalogEntry.takes_fields {e : CatalogEntry} (h : e.Encodes) (start : Nat) :
    Field.Takes start (e.fields start) e.filled := by
  have fits := encodes_iff.1 h
  simp only [texts, List.forall_mem_cons] at fits
  obtain ⟨hc, ht, hk, ha, -⟩ := fits
  have catalog := Field.takes_text start hc
  have title := Field.takes_text (start + 31) ht
  have kind := Field.takes_text (start + 102) hk
  have artist := Field.takes_text (start + 133) ha
  exact ((catalog.append title rfl).append kind rfl).append artist rfl

theorem TrackEntry.takes_fields {e : TrackEntry} (h : e.Encodes) (start : Nat) :
    Field.Takes start (e.fields start) e.filled := by
  have fits := encodes_iff.1 h
  simp only [texts, List.forall_mem_cons] at fits
  obtain ⟨hc, ht, -⟩ := fits
  have word : LittleEndian.ofInt32 e.number = LittleEndian.encode 4 (e.number.toInt % 2 ^ 32).toNat := by
    rw [LittleEndian.ofInt32, LittleEndian.ofUInt32, LittleEndian.toNat_toUInt32]
  have catalog := Field.takes_text start hc
  have number := Field.takes_number (n := (e.number.toInt % 2 ^ 32).toNat) 4 (start + 31) (by omega)
  have text := Field.takes_text (start + 35) ht
  rw [filled, word]
  exact (catalog.append number rfl).append text rfl

theorem Message.takes_header (m : Message) : Field.Takes 0
    [⟨0, 4, .mark [0x43, 0x44, 0x49, 0x50]⟩, ⟨4, 2, .number 1⟩, ⟨6, 1, .number m.operation.tag⟩,
      ⟨7, 1, .number m.status.tag⟩, ⟨8, 4, .number m.origin.toNat⟩] (Frame.header m) := by
  have tag : m.operation.tag < 256 ^ 1 := by cases m.operation <;> decide
  have status : m.status.tag < 256 ^ 1 := by cases m.status <;> decide
  have origin : m.origin.toNat < 256 ^ 4 := m.origin.toNat_lt
  have mark : Field.Takes 0 [⟨0, 4, .mark [0x43, 0x44, 0x49, 0x50]⟩] Frame.magic :=
    Field.Takes.single (f := ⟨0, 4, .mark [0x43, 0x44, 0x49, 0x50]⟩) rfl rfl
  have version := Field.takes_number (n := 1) 2 4 (by decide)
  have first := (mark.append version rfl).append (Field.takes_number 1 6 tag) rfl
  exact (first.append (Field.takes_number 1 7 status) rfl).append (Field.takes_number 4 8 origin) rfl

theorem Message.takes_fields {m : Message} (h : m.Encodes) : Field.Takes 0 m.fields m.frame := by
  obtain ⟨hc, ht, hd⟩ := encodes_iff.1 h
  have first := (takes_header m).append (CatalogEntry.takes_fields hc 12) (by simp)
  have entries := first.append (TrackEntry.takes_fields ht 216) (by simp [CatalogEntry.fields])
  exact entries.append (Field.takes_text 322 hd) (by simp [CatalogEntry.fields, TrackEntry.fields])

/-- Every message and every catalog entry is written as its table says, or fails as it says, and is read back. -/
theorem Frame.written_and_read_back (m : Message) (e : CatalogEntry) :
    Writes m.fields 403 Message.decode m m.encode
      ∧ Writes (e.fields 0) 204 CatalogEntry.ofBytes e e.toBytes := by
  constructor
  · refine .of_filled m.texts m.frame rfl (Message.encode_eq m) fun fits => ?_
    have encodes : m.Encodes := Message.misfit?_eq_none_iff.1 (Slot.firstMisfit?_eq_none_iff.2 fits)
    exact ⟨Message.length_frame encodes, (Message.takes_fields encodes).laidOut, Message.decode_frame encodes⟩
  · refine .of_filled e.texts e.filled rfl (CatalogEntry.toBytes_eq e) fun fits => ?_
    have encodes : e.Encodes := CatalogEntry.encodes_iff.2 fits
    exact ⟨CatalogEntry.length_filled encodes, (CatalogEntry.takes_fields encodes 0).laidOut,
      CatalogEntry.ofBytes_filled encodes⟩

end DiscCatalog
