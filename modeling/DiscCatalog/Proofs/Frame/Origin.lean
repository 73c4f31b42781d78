import DiscCatalog.Channel.Port
import DiscCatalog.Proofs.Frame.Language

namespace DiscCatalog

namespace Frame

/-- The origin is the number in bytes 8 to 11, the least significant byte first. -/
def Bears (frame : List UInt8) (origin : UInt32) : Prop :=
  origin.toNat = byte frame 8 + 256 * byte frame 9 + 65536 * byte frame 10 + 16777216 * byte frame 11

theorem bears_headerOrigin (frame : List UInt8) : Bears frame (headerOrigin frame) := by
  have digits : (headerOrigin frame).toNat =
      byte frame 8 + 256 * (byte frame 9 + 256 * (byte frame 10 + 256 * (byte frame 11 + 256 * 0))) := by
    rw [headerOrigin, LittleEndian.toNat_toUInt32_take]
    simp only [originOffset, decode_take_drop, List.take_zero, LittleEndian.decode]
  unfold Bears
  omega

theorem peekOrigin_of_decode {frame : List UInt8} {m : Message} (h : Message.decode frame = .ok m) :
    peekOrigin frame = some m.origin ∧ Bears frame m.origin := by
  rw [Message.decode_eq_settle, Demand.settle_eq_ok_iff] at h
  obtain ⟨rfl, met⟩ := h
  have whole : frame.length = size := met .size (by decide)
  rw [peekOrigin_eq whole, if_pos (met .mark (by decide))]
  exact ⟨rfl, bears_headerOrigin frame⟩

/-- Of the things that can be wrong with a frame of the right size, it is only for a wrong mark that its origin is not
read. -/
theorem mark_met_iff {frame : List UInt8} {cause : FrameFault} (whole : frame.length = size)
    (h : Message.decode frame = .error cause) : Demand.mark.Met frame ↔ ∀ found, cause ≠ .badMagic found := by
  rw [Message.decode_eq_settle, Demand.all, Demand.settle_of_met (d := .size) whole] at h
  by_cases mark : Demand.mark.Met frame
  · rw [Demand.settle_of_met mark, Demand.settle_eq_error_iff] at h
    obtain ⟨before, d, after, split, -, -, rfl⟩ := h
    have later : d ∈ Demand.all.drop 2 := by
      rw [show Demand.all.drop 2 = _ from split]
      simp
    refine iff_of_true mark fun found => ?_
    cases d with
    | mark => exact absurd later (by decide)
    | _ => exact FrameFault.noConfusion
  · rw [Demand.settle_of_unmet mark] at h
    cases h
    exact iff_of_false mark fun other => other _ rfl

section Stamp

variable {frame : List UInt8} (room : headerSize ≤ frame.length) (origin : UInt32)

include room

theorem length_front : (frame.take originOffset).length = originOffset := by
  rw [List.length_take]
  exact Nat.min_eq_left (Nat.le_trans (by decide) room)

theorem length_stamp : (stamp frame origin).length = frame.length := by
  have four : (LittleEndian.ofUInt32 origin).length = 4 := LittleEndian.length_encode 4 _
  simp only [headerSize] at room
  simp only [stamp, originOffset, List.length_append, List.length_take, List.length_drop, four]
  omega

theorem getElem?_stamp {i : Nat} (apart : i < 8 ∨ 12 ≤ i) : (stamp frame origin)[i]? = frame[i]? := by
  have four : (LittleEndian.ofUInt32 origin).length = 4 := LittleEndian.length_encode 4 _
  have eight : (frame.take originOffset).length = 8 := length_front room
  rw [stamp, List.append_assoc]
  obtain before | after := apart
  · rw [List.getElem?_append_left (by omega), List.getElem?_take_of_lt (show i < originOffset from before)]
  · rw [List.getElem?_append_right (by omega), List.getElem?_append_right (by omega), eight, four,
      List.getElem?_drop, originOffset]
    congr 1
    omega

theorem headerOrigin_stamp : headerOrigin (stamp frame origin) = origin := by
  have four : (LittleEndian.ofUInt32 origin).length = 4 := LittleEndian.length_encode 4 _
  rw [headerOrigin, stamp, List.append_assoc, List.drop_left' (length_front room), List.take_left' four,
    LittleEndian.toUInt32_ofUInt32]

theorem byte_stamp {i : Nat} (apart : i < 8 ∨ 12 ≤ i) : byte (stamp frame origin) i = byte frame i := by
  rw [byte, byte, List.getD_eq_getElem?_getD, List.getD_eq_getElem?_getD, getElem?_stamp room origin apart]

theorem take_drop_stamp {start n : Nat} (apart : start + n ≤ 8 ∨ 12 ≤ start) :
    ((stamp frame origin).drop start).take n = (frame.drop start).take n :=
  take_drop_congr fun _ low high => getElem?_stamp room origin (by omega)

theorem shown_stamp (s : Slot) : s.shown (stamp frame origin) = s.shown frame := by
  have behind : 12 ≤ s.offset := by cases s <;> decide
  rw [Slot.shown, Slot.block, take_drop_stamp room origin (.inr behind)]
  rfl

theorem content_stamp : content (stamp frame origin) = { content frame with origin } := by
  have operation : byte (stamp frame origin) 6 = byte frame 6 := byte_stamp room origin (.inl (by decide))
  have status : byte (stamp frame origin) 7 = byte frame 7 := byte_stamp room origin (.inl (by decide))
  have number : ((stamp frame origin).drop 247).take 4 = (frame.drop 247).take 4 :=
    take_drop_stamp room origin (.inr (by decide))
  simp only [content, headerOrigin_stamp room, Slot.textIn, shown_stamp room, operation, status, number]

/-- Nothing that is asked of a frame is asked of its origin. -/
theorem demand_stamp (d : Demand) :
    (d.Met frame ↔ d.Met (stamp frame origin)) ∧ d.fault frame = d.fault (stamp frame origin) := by
  have byte_eq (i : Nat) (low : i < 8) : byte (stamp frame origin) i = byte frame i := byte_stamp room origin (.inl low)
  have mark : (stamp frame origin).take 4 = frame.take 4 := @take_drop_stamp frame room origin 0 4 (.inl (by decide))
  cases d <;> rw [Demand.Met, Demand.Met, Demand.fault, Demand.fault]
  case size => rw [length_stamp room]; exact ⟨.rfl, rfl⟩
  case mark => rw [mark]; exact ⟨.rfl, rfl⟩
  case version => rw [byte_eq 4 (by decide), byte_eq 5 (by decide)]; exact ⟨.rfl, rfl⟩
  case operation => rw [byte_eq 6 (by decide)]; exact ⟨.rfl, rfl⟩
  case status => rw [byte_eq 7 (by decide)]; exact ⟨.rfl, rfl⟩
  case text s => rw [shown_stamp room]; exact ⟨.rfl, rfl⟩

theorem decode_stamp :
    Message.decode (stamp frame origin) = (Message.decode frame).map fun m => { m with origin } := by
  have stepwise (result : Except FrameFault Message) (f : Message → Message) :
      result.map f = result >>= fun m => pure (f m) := by cases result <;> rfl
  rw [stepwise, Message.decode_eq_settle, Message.decode_eq_settle, Demand.settle_bind_pure, content_stamp room]
  exact (Demand.settle_congr fun d _ => demand_stamp room origin d).symm

end Stamp

/-- Stamping a frame of the right size changes its origin and nothing else, neither in its bytes nor in the message or
the fault that it is decoded to, and the new origin can be read alone exactly if the mark is there. Of all bytes that
are decoded the origin that is read alone is that of the message; and of a frame that cannot be decoded the origin in
the header is reported, unless the mark is what is wrong with it. -/
theorem origin_stamped_and_peeked (frame : List UInt8) :
    (frame.length = 403 → ∀ origin,
      (stamp frame origin).length = 403
        ∧ (∀ i, i < 8 ∨ 12 ≤ i → (stamp frame origin)[i]? = frame[i]?)
        ∧ Bears (stamp frame origin) origin
        ∧ Message.decode (stamp frame origin) = (Message.decode frame).map (fun m => { m with origin })
        ∧ peekOrigin (stamp frame origin) = if frame.take 4 = [0x43, 0x44, 0x49, 0x50] then some origin else none)
      ∧ (∀ m, Message.decode frame = .ok m → peekOrigin frame = some m.origin ∧ Bears frame m.origin)
      ∧ (frame.length = 403 → ∀ cause, Message.decode frame = .error cause →
          ∃ reported, messageOfRead frame = .error (.malformed reported cause)
            ∧ ((∃ origin, reported = some origin) ↔ ∀ found, cause ≠ .badMagic found)
            ∧ ∀ origin, reported = some origin → Bears frame origin) := by
  refine ⟨fun whole origin => ?_, fun m => peekOrigin_of_decode, fun whole cause failed => ?_⟩
  · have room : headerSize ≤ frame.length := by
      rw [whole]
      decide
    have length : (stamp frame origin).length = 403 := (length_stamp room origin).trans whole
    have bears := bears_headerOrigin (stamp frame origin)
    rw [headerOrigin_stamp room] at bears
    refine ⟨length, fun i => getElem?_stamp room origin, bears, decode_stamp room origin, ?_⟩
    rw [peekOrigin_eq length, headerOrigin_stamp room]
    simp only [← (demand_stamp room origin .mark).1]
    rfl
  · have read : messageOfRead frame = .error (.malformed (peekOrigin frame) cause) := by
      rw [messageOfRead, if_neg (not_not_intro (show frame.length = size from whole)), failed]
    refine ⟨peekOrigin frame, read, ?_, ?_⟩
    all_goals rw [peekOrigin_eq whole]
    · rw [← mark_met_iff whole failed]
      split <;> simp [*]
    · intro origin peeked
      split at peeked
      · cases peeked
        exact bears_headerOrigin frame
      · cases peeked

/-- A request of client 7 and a frame of it in which no status has the tag that stands there, both stamped for
client 258. -/
theorem origin_stamped_and_peeked_unknownStatus :
    let m := Message.ofRequest 7 (.getCatalog "CD1")
    let bad := magic ++ [1, 0, 1, 9, 7, 0, 0, 0] ++ List.replicate 391 0
    Message.decode m.frame = .ok m ∧ Message.decode (stamp m.frame 258) = .ok { m with origin := 258 }
      ∧ peekOrigin m.frame = some 7
      ∧ Message.decode bad = .error (.unknownStatus 9) ∧ Message.decode (stamp bad 258) = .error (.unknownStatus 9)
      ∧ ∃ origin, messageOfRead bad = .error (.malformed (some origin) (.unknownStatus 9)) ∧ Bears bad origin := by
  intro m bad
  have fits : m.Encodes := Message.encodes_iff.2 ⟨CatalogEntry.encodes_iff.2 (by decide), TrackEntry.encodes_empty, by decide⟩
  have good : Message.decode m.frame = .ok m := Message.decode_frame fits
  have length : bad.length = 403 := by decide +kernel
  have failed : Message.decode bad = .error (.unknownStatus 9) := by decide +kernel
  obtain ⟨stamped, peeked, -⟩ := origin_stamped_and_peeked m.frame
  obtain ⟨restamped, -, reported⟩ := origin_stamped_and_peeked bad
  obtain ⟨-, -, -, decoded, -⟩ := stamped (Message.length_frame fits) 258
  obtain ⟨-, -, -, refused, -⟩ := restamped length 258
  obtain ⟨origin?, read, known, bears⟩ := reported length _ failed
  obtain ⟨origin, rfl⟩ := known.2 fun _ => FrameFault.noConfusion
  rw [good] at decoded
  rw [failed] at refused
  exact ⟨good, decoded, (peeked m good).1, failed, refused, origin, read, bears origin rfl⟩

end Frame

end DiscCatalog
