import DiscCatalog.Proofs.Frame.Reading
import DiscCatalog.Proofs.Text.Utf8

namespace DiscCatalog

namespace Slot

/-- The bytes of the slot that are read: those before the first NUL, or all of them. -/
def shown (s : Slot) (frame : List UInt8) : List UInt8 := (s.block frame).takeWhile (· ≠ 0)

theorem apart {s t : Slot} (h : t ≠ s) : s.offset + s.width ≤ t.offset ∨ t.offset + t.width ≤ s.offset := by
  cases s <;> cases t <;> first | decide | contradiction

example : [catalog, title, kind, artist, trackCatalog, trackText, diagnostic].map offset
    = [12, 43, 114, 145, 216, 251, 322] := rfl

def textIn (s : Slot) (frame : List UInt8) : String := (Text.ofBytes? (s.shown frame)).getD ""

end Slot

namespace Frame

def byte (frame : List UInt8) (i : Nat) : Nat := (frame.getD i 0).toNat

theorem decode_take_drop (frame : List UInt8) (i n : Nat) :
    LittleEndian.decode ((frame.drop i).take (n + 1))
      = byte frame i + 256 * LittleEndian.decode ((frame.drop (i + 1)).take n) := by
  unfold byte
  by_cases inside : i < frame.length
  · rw [List.drop_eq_getElem_cons inside, List.take_succ_cons, LittleEndian.decode,
      List.getD_eq_getElem?_getD, List.getElem?_eq_getElem inside, Option.getD_some]
  · rw [List.drop_of_length_le (by omega), List.drop_of_length_le (by omega),
      List.getD_eq_getElem?_getD, List.getElem?_eq_none (by omega)]
    simp [LittleEndian.decode]

/-- What is asked of a frame. -/
inductive Demand where
  | size
  | mark
  | version
  | operation
  | status
  | text (s : Slot)
deriving DecidableEq

namespace Demand

/-- Everything that is asked of a frame, in order. -/
def all : List Demand :=
  [size, mark, version, operation, status, text .catalog, text .title, text .kind, text .artist,
    text .trackCatalog, text .trackText, text .diagnostic]

def Met (frame : List UInt8) : Demand → Prop
  | size => frame.length = 403
  | mark => frame.take 4 = [0x43, 0x44, 0x49, 0x50]
  | version => byte frame 4 + 256 * byte frame 5 = 1
  | operation => byte frame 6 ≤ 7
  | status => byte frame 7 ≤ 2
  | text s => Text.Utf8 (s.shown frame)

/-- What is reported of a frame that does not meet the demand. -/
def fault (frame : List UInt8) : Demand → FrameFault
  | size => .length 403 frame.length
  | mark => .badMagic (frame.take 4)
  | version => .unsupportedVersion (byte frame 4 + 256 * byte frame 5)
  | operation => .unknownOperation (byte frame 6)
  | status => .unknownStatus (byte frame 7)
  | text s => .invalidText s.label

instance (frame : List UInt8) : DecidablePred (Met frame)
  | size => inferInstanceAs (Decidable (_ = _))
  | mark => inferInstanceAs (Decidable (_ = _))
  | version => inferInstanceAs (Decidable (_ = _))
  | operation => inferInstanceAs (Decidable (_ ≤ _))
  | status => inferInstanceAs (Decidable (_ ≤ _))
  | text s => decidable_of_iff ((Text.ofBytes? (s.shown frame)).isSome = true) (by
      simp only [Option.isSome_iff_exists, Text.ofBytes?_eq_some_iff, ← Text.utf8_iff, Met])

variable {α β : Type}

def settle (frame : List UInt8) (a : α) : List Demand → Except FrameFault α
  | [] => .ok a
  | d :: ds => if d.Met frame then settle frame a ds else .error (d.fault frame)

theorem settle_of_met {frame : List UInt8} {a : α} {d : Demand} {ds : List Demand} (h : d.Met frame) :
    settle frame a (d :: ds) = settle frame a ds := if_pos h

theorem settle_of_unmet {frame : List UInt8} {a : α} {d : Demand} {ds : List Demand} (h : ¬ d.Met frame) :
    settle frame a (d :: ds) = .error (d.fault frame) := if_neg h

theorem settle_bind_pure (frame : List UInt8) (a : α) (f : α → β) (ds : List Demand) :
    (settle frame a ds >>= fun x => pure (f x)) = settle frame (f a) ds := by
  induction ds with
  | nil => rfl
  | cons d ds ih =>
    rw [settle, settle, ← ih]
    split <;> rfl

theorem settle_bind (frame : List UInt8) (a : α) (f : α → β) (ds es : List Demand) :
    (settle frame a ds >>= fun x => settle frame (f x) es) = settle frame (f a) (ds ++ es) := by
  induction ds with
  | nil => rfl
  | cons d ds ih =>
    rw [List.cons_append, settle, settle, ← ih]
    split <;> rfl

theorem settle_eq_ok_iff {frame : List UInt8} {a b : α} {ds : List Demand} :
    settle frame a ds = .ok b ↔ a = b ∧ ∀ d ∈ ds, d.Met frame := by
  induction ds with
  | nil => simp [settle]
  | cons d ds ih =>
    rw [settle, List.forall_mem_cons]
    split
    · next met => simp only [ih, met, true_and]
    · next unmet => simp [unmet]

theorem settle_eq_error_iff {frame : List UInt8} {a : α} {ds : List Demand} {f : FrameFault} :
    settle frame a ds = .error f ↔ ∃ before d after, ds = before ++ d :: after
      ∧ (∀ e ∈ before, e.Met frame) ∧ ¬ d.Met frame ∧ f = d.fault frame := by
  induction ds with
  | nil => simp [settle]
  | cons d ds ih =>
    rw [settle]
    split
    · next met =>
      rw [ih]
      constructor
      · rintro ⟨before, e, after, rfl, first, unmet, rfl⟩
        exact ⟨d :: before, e, after, rfl, List.forall_mem_cons.2 ⟨met, first⟩, unmet, rfl⟩
      · rintro ⟨_ | ⟨b, before⟩, e, after, split, first, unmet, rfl⟩
        · cases split
          exact absurd met unmet
        · cases split
          exact ⟨before, e, after, rfl, (List.forall_mem_cons.1 first).2, unmet, rfl⟩
    · next unmet =>
      constructor
      · intro h
        cases h
        exact ⟨[], d, ds, rfl, List.forall_mem_nil _, unmet, rfl⟩
      · rintro ⟨_ | ⟨b, before⟩, e, after, split, first, _, rfl⟩
        · cases split
          rfl
        · cases split
          exact absurd (first d List.mem_cons_self) unmet

theorem settle_congr {frame other : List UInt8} {a : α} {ds : List Demand}
    (h : ∀ d ∈ ds, (d.Met frame ↔ d.Met other) ∧ d.fault frame = d.fault other) :
    settle frame a ds = settle other a ds := by
  induction ds with
  | nil => rfl
  | cons d ds ih =>
    obtain ⟨⟨same, faults⟩, others⟩ := List.forall_mem_cons.1 h
    simp only [settle, same, faults, ih others]

end Demand

def content (frame : List UInt8) : Message where
  origin := headerOrigin frame
  operation := (Operation.ofTag? (byte frame 6)).getD default
  status := (Status.ofTag? (byte frame 7)).getD default
  catalog := {
    catalog := Slot.catalog.textIn frame, title := Slot.title.textIn frame, kind := Slot.kind.textIn frame
    artist := Slot.artist.textIn frame }
  track := {
    catalog := Slot.trackCatalog.textIn frame, number := LittleEndian.toInt32 ((frame.drop 247).take 4)
    text := Slot.trackText.textIn frame }
  diagnostic := Slot.diagnostic.textIn frame

theorem read_block (s : Slot) (frame : List UInt8) :
    s.read (s.block frame) = Demand.settle frame (s.textIn frame) [.text s] := by
  have met : (Demand.text s).Met frame ↔ ∃ known, Text.ofBytes? (s.shown frame) = some known := by
    simp only [Demand.Met, Text.utf8_iff, Text.ofBytes?_eq_some_iff]
  unfold Slot.read Slot.textIn
  rw [← Slot.shown]
  cases found : Text.ofBytes? (s.shown frame) with
  | some known =>
    rw [Demand.settle_of_met (met.2 ⟨known, found⟩)]
    rfl
  | none =>
    rw [Demand.settle_of_unmet (by simp [met, found])]
    rfl

theorem peekOrigin_eq {frame : List UInt8} (whole : frame.length = size) :
    peekOrigin frame = if Demand.mark.Met frame then some (headerOrigin frame) else none := by
  have long : ¬ frame.length < headerSize := by
    rw [whole]
    decide
  by_cases mark : Demand.mark.Met frame
  · rw [if_pos mark]
    exact if_neg (not_or.2 ⟨long, not_not_intro mark⟩)
  · rw [if_neg mark]
    exact if_pos (.inr mark)

theorem operation_of_met {frame : List UInt8} (h : Demand.operation.Met frame) :
    Operation.ofTag? (byte frame 6) = some (content frame).operation := by
  have known : ∀ n ≤ 7, Operation.ofTag? n = some ((Operation.ofTag? n).getD default) := by decide
  exact known _ h

theorem operation_of_unmet {frame : List UInt8} (h : ¬ Demand.operation.Met frame) :
    Operation.ofTag? (byte frame 6) = none := by
  obtain ⟨k, hk⟩ : ∃ k, byte frame 6 = k + 8 := ⟨byte frame 6 - 8, by have := Nat.not_le.1 h; omega⟩
  rw [hk]
  rfl

theorem status_of_met {frame : List UInt8} (h : Demand.status.Met frame) :
    Status.ofTag? (byte frame 7) = some (content frame).status := by
  have known : ∀ n ≤ 2, Status.ofTag? n = some ((Status.ofTag? n).getD default) := by decide
  exact known _ h

theorem status_of_unmet {frame : List UInt8} (h : ¬ Demand.status.Met frame) :
    Status.ofTag? (byte frame 7) = none := by
  obtain ⟨k, hk⟩ : ∃ k, byte frame 7 = k + 3 := ⟨byte frame 7 - 3, by have := Nat.not_le.1 h; omega⟩
  rw [hk]
  rfl

theorem opening_eq (frame : List UInt8) :
    opening frame = Demand.settle frame ((content frame).operation, (content frame).status, headerOrigin frame)
      [.mark, .version, .operation, .status] := by
  have word : LittleEndian.decode ((frame.drop 4).take 2) = byte frame 4 + 256 * byte frame 5 := by
    rw [decode_take_drop, decode_take_drop]
    rfl
  have one (i : Nat) : LittleEndian.decode ((frame.drop i).take 1) = byte frame i := by
    rw [decode_take_drop]
    rfl
  unfold opening
  rw [word, one, one]
  by_cases mark : Demand.mark.Met frame
  case neg =>
    rw [Demand.settle_of_unmet mark]
    exact if_pos mark
  by_cases version : Demand.version.Met frame
  case neg =>
    rw [Demand.settle_of_met mark, Demand.settle_of_unmet version]
    exact (if_neg (not_not.2 mark)).trans (if_pos version)
  rw [Demand.settle_of_met mark, Demand.settle_of_met version]
  refine (if_neg (not_not.2 mark)).trans ((if_neg (not_not.2 version)).trans ?_)
  by_cases operation : Demand.operation.Met frame
  case neg =>
    rw [Demand.settle_of_unmet operation, operation_of_unmet operation]
    rfl
  rw [Demand.settle_of_met operation, operation_of_met operation]
  by_cases status : Demand.status.Met frame
  case neg =>
    rw [Demand.settle_of_unmet status, status_of_unmet status]
    rfl
  rw [Demand.settle_of_met status, status_of_met status]
  rfl

end Frame

theorem CatalogEntry.ofBlock_part (frame : List UInt8) :
    ofBlock ((frame.drop Frame.headerSize).take frameSize) = do
      let catalog ← Slot.catalog.read (Slot.catalog.block frame)
      let title ← Slot.title.read (Slot.title.block frame)
      let kind ← Slot.kind.read (Slot.kind.block frame)
      let artist ← Slot.artist.read (Slot.artist.block frame)
      return { catalog, title, kind, artist } := by
  unfold ofBlock
  simp only [List.drop_take, List.take_take, List.drop_drop]
  rfl

theorem TrackEntry.ofBlock_part (frame : List UInt8) :
    ofBlock (((frame.drop Frame.headerSize).drop CatalogEntry.frameSize).take frameSize) = do
      let catalog ← Slot.trackCatalog.read (Slot.trackCatalog.block frame)
      let text ← Slot.trackText.read (Slot.trackText.block frame)
      return { catalog, number := LittleEndian.toInt32 ((frame.drop 247).take 4), text } := by
  unfold ofBlock
  simp only [List.drop_take, List.take_take, List.drop_drop]
  rfl

theorem Slot.diagnostic_part (frame : List UInt8) :
    (((frame.drop Frame.headerSize).drop CatalogEntry.frameSize).drop TrackEntry.frameSize).take diagnostic.width
      = diagnostic.block frame := by
  simp only [List.drop_drop]
  rfl

theorem Message.decode_eq_settle (frame : List UInt8) :
    decode frame = Frame.Demand.settle frame (Frame.content frame) Frame.Demand.all := by
  by_cases size : Frame.Demand.size.Met frame
  case neg =>
    rw [Frame.Demand.all, Frame.Demand.settle_of_unmet size, decode]
    exact if_pos size
  rw [Frame.Demand.all, Frame.Demand.settle_of_met size, decode_eq_parts size, Frame.opening_eq,
    CatalogEntry.ofBlock_part, TrackEntry.ofBlock_part, Slot.diagnostic_part]
  simp only [Frame.read_block, Frame.Demand.settle_bind_pure, Frame.Demand.settle_bind]
  rfl

namespace Frame

/-- A byte of a slot with a NUL before it in the same slot. -/
def Hidden (frame : List UInt8) (i : Nat) : Prop :=
  ∃ (s : Slot) (j : Nat), s.offset ≤ j ∧ j < i ∧ i < s.offset + s.width ∧ frame[j]? = some 0

theorem not_hidden_of_lt {frame : List UInt8} {i : Nat} (h : i < headerSize) : ¬ Hidden frame i := by
  rintro ⟨s, j, start, before, -⟩
  have header : headerSize ≤ s.offset := by cases s <;> decide
  omega

/-- The track number stands between two slots. -/
theorem not_hidden_number {frame : List UInt8} {i : Nat} (low : 247 ≤ i) (high : i < 251) : ¬ Hidden frame i := by
  rintro ⟨s, j, start, before, within, -⟩
  have beside : s.offset + s.width ≤ 247 ∨ 251 ≤ s.offset := by cases s <;> decide
  omega

theorem take_drop_congr {frame other : List UInt8} {start n : Nat}
    (h : ∀ i, start ≤ i → i < start + n → other[i]? = frame[i]?) :
    (other.drop start).take n = (frame.drop start).take n := by
  apply List.ext_getElem?
  intro k
  by_cases inside : k < n
  · rw [List.getElem?_take_of_lt inside, List.getElem?_take_of_lt inside, List.getElem?_drop, List.getElem?_drop]
    exact h _ (by omega) (by omega)
  · rw [List.getElem?_eq_none (by rw [List.length_take]; omega),
      List.getElem?_eq_none (by rw [List.length_take]; omega)]

theorem takeWhile_congr {block other : List UInt8}
    (h : ∀ i : Nat, (∀ j : Nat, j < i → block[j]? ≠ some 0) → other[i]? = block[i]?) :
    other.takeWhile (· ≠ 0) = block.takeWhile (· ≠ 0) := by
  induction block generalizing other with
  | nil =>
    have none : other[0]? = none := h 0 (by simp)
    rw [List.getElem?_eq_none_iff, Nat.le_zero, List.length_eq_zero_iff] at none
    rw [none]
  | cons b block ih =>
    cases other with
    | nil => simpa using h 0 (by simp)
    | cons c other =>
      have same : c = b := by simpa using h 0 (by simp)
      subst same
      by_cases nul : c = 0
      · rw [List.takeWhile_cons_of_neg (by simp [nul]), List.takeWhile_cons_of_neg (by simp [nul])]
      · rw [List.takeWhile_cons_of_pos (by simp [nul]), List.takeWhile_cons_of_pos (by simp [nul])]
        rw [ih fun i before => h (i + 1) fun j hj => ?_]
        cases j with
        | zero => simpa using nul
        | succ j => simpa using before j (by omega)

theorem shown_congr {frame other : List UInt8} (h : ∀ i, ¬ Hidden frame i → other[i]? = frame[i]?) (s : Slot) :
    s.shown other = s.shown frame := by
  refine takeWhile_congr fun i before => ?_
  unfold Slot.block at before ⊢
  by_cases inside : i < s.width
  · rw [List.getElem?_take_of_lt inside, List.getElem?_take_of_lt inside, List.getElem?_drop, List.getElem?_drop]
    refine h _ ?_
    rintro ⟨t, j, start, earlier, within, nul⟩
    have own : t = s := by
      by_contra other
      have := Slot.apart other
      omega
    subst own
    have none := before (j - t.offset) (by omega)
    rw [List.getElem?_take_of_lt (by omega), List.getElem?_drop, Nat.add_sub_cancel' start] at none
    exact none nul
  · rw [List.getElem?_eq_none (by rw [List.length_take]; omega),
      List.getElem?_eq_none (by rw [List.length_take]; omega)]

/-- Nothing of what is hidden shows, neither in the message nor in the fault. -/
theorem decode_congr {frame other : List UInt8} (length : other.length = frame.length)
    (h : ∀ i, ¬ Hidden frame i → other[i]? = frame[i]?) : Message.decode other = Message.decode frame := by
  have shown := shown_congr h
  have header (start n : Nat) (fits : start + n ≤ headerSize) :
      (other.drop start).take n = (frame.drop start).take n :=
    take_drop_congr fun i _ high => h i (not_hidden_of_lt (by omega))
  have bytes (i : Nat) (low : i < headerSize) : byte other i = byte frame i := by
    rw [byte, byte, List.getD_eq_getElem?_getD, List.getD_eq_getElem?_getD, h i (not_hidden_of_lt low)]
  have number : (other.drop 247).take 4 = (frame.drop 247).take 4 :=
    take_drop_congr fun i low high => h i (not_hidden_number low high)
  have same : content other = content frame := by
    simp only [content, headerOrigin, Slot.textIn, shown, number, bytes 6 (by decide), bytes 7 (by decide),
      header originOffset 4 (by decide)]
  rw [Message.decode_eq_settle, Message.decode_eq_settle, same]
  have mark : other.take 4 = frame.take 4 := header 0 4 (by decide)
  refine Demand.settle_congr fun d _ => ?_
  cases d <;> rw [Demand.Met, Demand.Met, Demand.fault, Demand.fault]
  case size => rw [length]; exact ⟨.rfl, rfl⟩
  case mark => rw [mark]; exact ⟨.rfl, rfl⟩
  case version => rw [bytes 4 (by decide), bytes 5 (by decide)]; exact ⟨.rfl, rfl⟩
  case operation => rw [bytes 6 (by decide)]; exact ⟨.rfl, rfl⟩
  case status => rw [bytes 7 (by decide)]; exact ⟨.rfl, rfl⟩
  case text s _ => rw [shown s]; exact ⟨.rfl, rfl⟩

end Frame

end DiscCatalog
