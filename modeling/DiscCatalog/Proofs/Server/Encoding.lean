import DiscCatalog.Proofs.Frame.Diagnostic
import DiscCatalog.Proofs.Server.Replies

namespace DiscCatalog

namespace Message

theorem encodes_reply {m : Message} {status : Status} :
    (m.reply status).Encodes ↔ m.catalog.Encodes ∧ m.track.Encodes := by
  simp [encodes_iff, reply]

theorem encodes_failure {m : Message} {cause : String} :
    (m.failure cause).Encodes ↔ m.catalog.Encodes ∧ m.track.Encodes := by
  simp [encodes_iff, failure, withDiagnostic, reply, fits_fitDiagnostic]

theorem encodes_conclusion {m : Message} {outcome : Except StoreFault Unit} :
    (m.conclusion outcome).Encodes ↔ m.catalog.Encodes ∧ m.track.Encodes := by
  cases outcome with
  | ok => exact encodes_reply
  | error => exact encodes_failure

theorem encodes_found {m : Message} {e : CatalogEntry} :
    (m.found e).Encodes ↔ e.Encodes ∧ m.track.Encodes := by
  simp [encodes_iff, found, reply]

theorem encodes_noMore {m : Message} : m.noMore.Encodes ↔ m.track.Encodes := by
  simp [encodes_iff, noMore, reply, CatalogEntry.encodes_empty]

theorem encodes_cutShort {m : Message} {cause : ChannelFault} :
    (m.cutShort cause).Encodes ↔ m.track.Encodes := by
  simp [cutShort, encodes_failure, CatalogEntry.encodes_empty]

def Echoes (m : Message) : Prop :=
  match m.operation with
  | .getTrack => m.catalog.Encodes
  | .getCatalog | .findCatalog => m.track.Encodes
  | _ => m.catalog.Encodes ∧ m.track.Encodes

theorem Encodes.echoes {m : Message} (h : m.Encodes) : m.Echoes := by
  obtain ⟨hc, ht, -⟩ := encodes_iff.1 h
  unfold Echoes
  split
  · exact hc
  · exact ht
  · exact ht
  · exact ⟨hc, ht⟩

end Message

namespace Store

variable {s : Store}

theorem Encodes.catalog? (h : s.Encodes) (key : String) : ((s.catalog? key).getD {}).Encodes := by
  cases hf : s.catalog? key with
  | none => exact CatalogEntry.encodes_empty
  | some e => exact h.catalogs e (Table.mem_of_find? hf).1

theorem Encodes.track? (h : s.Encodes) (key : String) (number : Int32) :
    ((s.track? key number).getD {}).Encodes := by
  cases hf : s.track? key number with
  | none => exact TrackEntry.encodes_empty
  | some e => exact h.tracks e (Table.mem_of_find? hf).1

theorem Encodes.matching (h : s.Encodes) (query : String) : ∀ e ∈ s.matching query, e.Encodes :=
  fun e he => h.catalogs e (List.mem_filter.1 he).1

end Store

namespace Server

/-- Over rows that all fit, the replies fit exactly if the slots that they repeat do. -/
theorem repliesTo_encode_iff {m : Message} {s : Store} (hs : s.Encodes) :
    (∀ r ∈ repliesTo m s, r.Encodes) ↔ m.Echoes := by
  unfold repliesTo Message.request Message.Echoes
  cases m.operation with
  | findCatalog =>
    simp only [List.forall_mem_append, List.forall_mem_map, List.forall_mem_singleton,
      Message.encodes_found, Message.encodes_noMore]
    exact ⟨fun h => h.2, fun ht => ⟨fun e he => ⟨hs.matching _ e he, ht⟩, ht⟩⟩
  | getCatalog =>
    simp [Message.encodes_iff, Message.reply, hs.catalog?]
  | getTrack =>
    simp [Message.encodes_iff, Message.reply, hs.track?]
  | createDatabase | addCatalog | addTrack | deleteCatalog | deleteTrack =>
    simp [changeOf, Message.encodes_conclusion]

theorem conclusion_addressed (m : Message) (outcome : Except StoreFault Unit) :
    (m.conclusion outcome).origin = m.origin ∧ (m.conclusion outcome).operation = m.operation := by
  cases outcome <;> exact ⟨rfl, rfl⟩

theorem fits_notFound {what : String} (size : what.utf8ByteSize ≤ 48) (plain : '\x00' ∉ what.toList) :
    Slot.diagnostic.Fits (commandFailed (StoreFault.notFound what).message) := by
  have text : commandFailed (StoreFault.notFound what).message = "command failed: No such record: " ++ what := by
    change "command failed: " ++ ("No such record: " ++ what) = _
    rw [← String.append_assoc]
    rfl
  have front : "command failed: No such record: ".utf8ByteSize = 32 := by decide
  constructor
  · rw [text, String.utf8ByteSize_append, front]
    exact Nat.add_le_add_left size 32
  · rw [text, String.toList_append, List.mem_append]
    rintro (h | h)
    · simp at h
    · exact plain h

theorem fits_emptyKey : Slot.diagnostic.Fits (commandFailed StoreFault.emptyKey.message) := by
  decide

theorem checkKey_error_of_fits {key : String} {f : StoreFault} (h : checkKey key = .error f)
    (size : key.utf8ByteSize ≤ Slot.catalog.capacity) : f = .emptyKey := by
  unfold checkKey at h
  split at h
  · cases h; rfl
  · rw [if_neg (Nat.not_lt.2 size)] at h
    cases h

/-- A request that fits its frame is told in full why the store refused it. -/
theorem fits_refusal {origin : UInt32} {request : Request} {c : Change} {s : Store} {f : StoreFault}
    (hc : changeOf request = some c) (fits : (Message.ofRequest origin request).Encodes)
    (h : s.apply c = .error f) : Slot.diagnostic.Fits (commandFailed f.message) := by
  obtain ⟨fc, ft, -⟩ := Message.encodes_iff.1 fits
  cases request with
  | createDatabase => cases hc; cases h
  | addCatalog e =>
    cases hc
    have key : Slot.catalog.Fits e.catalog :=
      CatalogEntry.encodes_iff.1 fc (.catalog, e.catalog) (by simp [CatalogEntry.texts, Message.ofRequest])
    obtain ⟨_, ⟨⟩, hk⟩ | ⟨_, ⟨⟩, -⟩ | ⟨_, ⟨⟩, -⟩ | ⟨_, _, ⟨⟩, -⟩ := Store.apply_eq_error h
    rw [checkKey_error_of_fits hk key.1]
    exact fits_emptyKey
  | addTrack e =>
    cases hc
    have key : Slot.trackCatalog.Fits e.catalog :=
      TrackEntry.encodes_iff.1 ft (.trackCatalog, e.catalog) (by simp [TrackEntry.texts, Message.ofRequest])
    obtain ⟨_, ⟨⟩, -⟩ | ⟨_, ⟨⟩, hk⟩ | ⟨_, ⟨⟩, -⟩ | ⟨_, _, ⟨⟩, -⟩ := Store.apply_eq_error h
    rw [checkKey_error_of_fits hk key.1]
    exact fits_emptyKey
  | deleteCatalog key =>
    cases hc
    have short : Slot.catalog.Fits key := CatalogEntry.encodes_ofKey.1 fc
    obtain ⟨_, ⟨⟩, -⟩ | ⟨_, ⟨⟩, -⟩ | ⟨_, ⟨⟩, rfl⟩ | ⟨_, _, ⟨⟩, -⟩ := Store.apply_eq_error h
    exact fits_notFound (short.1.trans (by decide)) short.2
  | deleteTrack key number =>
    cases hc
    have short : Slot.trackCatalog.Fits key := TrackEntry.encodes_ofKey.1 ft
    obtain ⟨_, ⟨⟩, -⟩ | ⟨_, ⟨⟩, -⟩ | ⟨_, ⟨⟩, -⟩ | ⟨_, _, ⟨⟩, rfl⟩ := Store.apply_eq_error h
    have middle : " track ".utf8ByteSize = 7 := by decide
    have digits := Text.utf8ByteSize_toString_le number
    have room : key.utf8ByteSize ≤ 30 := short.1
    apply fits_notFound
    · change (key ++ " track " ++ toString number).utf8ByteSize ≤ 48
      rw [String.utf8ByteSize_append, String.utf8ByteSize_append, middle]
      omega
    · change '\x00' ∉ (key ++ " track " ++ toString number).toList
      simp only [String.toList_append, List.mem_append, not_or]
      exact ⟨⟨short.2, by simp⟩, Text.nul_notMem_toString number⟩
  | getCatalog | getTrack | findCatalog => cases hc

end Server

end DiscCatalog
