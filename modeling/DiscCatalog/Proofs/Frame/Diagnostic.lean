import DiscCatalog.Proofs.Frame.RoundTrip
import DiscCatalog.Proofs.Text.Boundaries

namespace DiscCatalog

namespace Message

theorem sizeOf_blanked (cs : List Char) :
    Text.sizeOf (cs.map fun c => if c = '\x00' then ' ' else c) = Text.sizeOf cs := by
  induction cs with
  | nil => rfl
  | cons c cs ih =>
    rw [List.map_cons, Text.sizeOf, Text.sizeOf, ih]
    by_cases nul : c = '\x00'
    · subst nul
      rfl
    · rw [if_neg nul]

theorem fits_fitDiagnostic (text : String) : Slot.diagnostic.Fits (fitDiagnostic text) := by
  constructor
  · rw [fitDiagnostic, Text.utf8ByteSize_ofList, sizeOf_blanked, Text.clip, String.toList_ofList]
    exact Text.sizeOf_clipChars_le _ _
  · rw [fitDiagnostic, String.toList_ofList, List.mem_map]
    rintro ⟨c, -, hc⟩
    split at hc
    · cases hc
    · next plain => exact plain hc

theorem fitDiagnostic_of_fits {text : String} (h : Slot.diagnostic.Fits text) :
    fitDiagnostic text = text := by
  rw [fitDiagnostic, Text.clip_of_le h.1]
  have same : text.toList.map (fun c => if c = '\x00' then ' ' else c) = text.toList.map id := by
    apply List.map_congr_left
    intro c hc
    have plain : c ≠ '\x00' := fun hz => h.2 (hz ▸ hc)
    simp [plain]
  rw [same, List.map_id, String.ofList_toList]

theorem encodes_rejection (origin : UInt32) (text : String) : (rejection origin text).Encodes := by
  simp [encodes_iff, rejection, withDiagnostic, ofRequest, fits_fitDiagnostic, CatalogEntry.encodes_empty,
    TrackEntry.encodes_empty]

/-- With a diagnostic that fits its slot a message is kept out of a frame by its entries alone. -/
theorem encode_eq_error_iff {m : Message} {fault : FrameFault} (h : Slot.diagnostic.Fits m.diagnostic) :
    m.encode = .error fault ↔
      m.catalog.toBytes = .error fault ∨ m.catalog.Encodes ∧ m.track.toBytes = .error fault := by
  have diagnostic : Slot.diagnostic.write m.diagnostic = .ok (Slot.diagnostic.filled m.diagnostic) := by
    rw [Slot.write_eq, Slot.misfit?_eq_none_iff.2 h]
  unfold encode CatalogEntry.Encodes
  rw [diagnostic]
  cases m.catalog.toBytes with
  | error other => exact ⟨.inl, fun failed => failed.elim id fun ⟨⟨_, ok⟩, _⟩ => nomatch ok⟩
  | ok catalog =>
    cases m.track.toBytes with
    | error other => exact ⟨fun failed => .inr ⟨⟨catalog, rfl⟩, failed⟩, fun failed => failed.elim nofun And.right⟩
    | ok track => exact ⟨nofun, fun failed => failed.elim nofun fun ⟨_, failed⟩ => nomatch failed⟩

/-- Cutting a text by going back from a limit always comes to a place to cut at, and to the longest part within the
limit. Whatever text is set as a diagnostic, that part of it is kept, with a blank for every NUL; setting it again
changes nothing, no message is kept out of a frame by it, and a rejection always fits. -/
theorem diagnostics_always_fit (text : String) :
    (∀ room, ∃ part, Text.cutBack? room text = some part ∧ Text.LongestPart room text part
        ∧ Text.clip room text = part)
      ∧ (∀ m : Message, ∃ part, Text.LongestPart 80 text part
          ∧ m.withDiagnostic text =
              { m with diagnostic := String.ofList (part.toList.map fun c => if c = '\x00' then ' ' else c) }
          ∧ (m.withDiagnostic text).diagnostic.utf8ByteSize ≤ 80
          ∧ (m.withDiagnostic text).withDiagnostic (m.withDiagnostic text).diagnostic = m.withDiagnostic text
          ∧ ∀ fault, (m.withDiagnostic text).encode = .error fault ↔
              m.catalog.toBytes = .error fault ∨ m.catalog.Encodes ∧ m.track.toBytes = .error fault)
      ∧ ∀ origin, ∃ frame, (rejection origin text).encode = .ok frame := by
  have fits := fits_fitDiagnostic text
  refine ⟨fun room => ?_, fun m => ?_, fun origin => encodes_rejection origin text⟩
  · exact ⟨_, Text.cutBack?_eq room text, Text.clip_longestPart room text, rfl⟩
  · have set_eq (word : String) : m.withDiagnostic word = { m with diagnostic := fitDiagnostic word } := rfl
    have size : (fitDiagnostic text).utf8ByteSize ≤ 80 := fits.1
    have kept : Text.LongestPart 80 text (Text.clip Slot.diagnostic.capacity text) := Text.clip_longestPart 80 text
    rw [set_eq]
    refine ⟨_, kept, rfl, size, ?_, fun fault => encode_eq_error_iff fits⟩
    change { m with diagnostic := fitDiagnostic (fitDiagnostic text) } = { m with diagnostic := fitDiagnostic text }
    rw [fitDiagnostic_of_fits fits]

end Message

end DiscCatalog
