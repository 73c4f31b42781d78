import DiscCatalog.Proofs.Frame.Terminators
import DiscCatalog.Proofs.Server.Encoding
import DiscCatalog.Proofs.Store.Repository

namespace DiscCatalog

namespace Operation

def repeated : Operation → List Slot
  | getCatalog | findCatalog => [.trackCatalog, .trackText]
  | getTrack => [.catalog, .title, .kind, .artist]
  | _ => [.catalog, .title, .kind, .artist, .trackCatalog, .trackText]

end Operation

namespace Message

/-- The replies to a message fit exactly if the slots that they repeat end in a NUL in its frame. -/
theorem echoes_iff_of_decode {frame : List UInt8} {m : Message} (h : decode frame = .ok m) :
    m.Echoes ↔ ∀ s ∈ m.operation.repeated, 0 ∈ s.block frame := by
  obtain ⟨catalog, track⟩ := slots_of_decode h
  have both : m.catalog.Encodes ∧ m.track.Encodes ↔
      ∀ s ∈ [Slot.catalog, .title, .kind, .artist] ++ [Slot.trackCatalog, .trackText], 0 ∈ s.block frame := by
    rw [List.forall_mem_append, catalog, track]
  unfold Echoes Operation.repeated
  cases m.operation with
  | getTrack => exact catalog
  | getCatalog | findCatalog => exact track
  | createDatabase | addCatalog | addTrack | deleteCatalog | deleteTrack => exact both

end Message

/-- A channel that gives frames to a server one by one and notes which of them it lets the server answer,
and all that the server hands to it in answer. -/
structure Watched (τ : Type) where
  line : τ
  waiting : List (List UInt8)
  current : List UInt8 := []
  answered : List (List UInt8) := []
  built : List Message := []

def messageOfFrame (frame : List UInt8) : Except ChannelFault Message :=
  match Message.decode frame with
  | .ok m => .ok m
  | .error cause => .error (.malformed (Frame.peekOrigin frame) cause)

theorem decode_of_messageOfFrame {frame : List UInt8} {m : Message} (given : messageOfFrame frame = .ok m) :
    Message.decode frame = .ok m := by
  unfold messageOfFrame at given
  split at given
  · next decoded => cases given; exact decoded
  · cases given

theorem undecoded_of_messageOfFrame {frame : List UInt8} {origin : Option UInt32} {cause : FrameFault}
    (given : messageOfFrame frame = .error (.malformed origin cause)) : Message.decode frame = .error cause := by
  unfold messageOfFrame at given
  split at given
  · cases given
  · next decoded => cases given; exact decoded

namespace Watched

variable {τ : Type}

def port (port : ServerPort τ) : ServerPort (Watched τ) where
  receive w :=
    match w.waiting with
    | [] => (.error .closed, w)
    | frame :: waiting => (messageOfFrame frame, { w with waiting, current := frame })
  replyBegin origin w :=
    match port.replyBegin origin w.line with
    | (.ok (), line) => (.ok (), { w with line, answered := w.answered ++ [w.current] })
    | (.error f, line) => (.error f, { w with line })
  replySend m w :=
    ((port.replySend m w.line).1, { w with line := (port.replySend m w.line).2, built := w.built ++ [m] })
  replyEnd w := { w with line := port.replyEnd w.line }
  close w := { w with line := port.close w.line }
  backlog w := w.waiting.length

end Watched

namespace Server

variable {τ : Type} (port : ServerPort τ)

abbrev Watch (τ : Type) := (Repository × Host) × Watched τ

def watchedStore (τ : Type) : RecordStore (Watch τ) :=
  Repository.recordStore.within ⟨Prod.fst, fun r s => (r, s.2)⟩

def watchedPort : ServerPort (Watch τ) := (Watched.port port).within ⟨Prod.snd, fun w s => (s.1, w)⟩

def after : (count : Nat) → Service (Watch τ) → Service (Watch τ)
  | 0, v => v
  | count + 1, v => (handleNext (watchedStore τ) (watchedPort port) (after count v)).2

structure Makes (replies : List Message) (s t : Watch τ) : Prop where
  built : t.2.built = s.2.built ++ replies
  answered : t.2.answered = s.2.answered

theorem Makes.refl (s : Watch τ) : Makes [] s s := ⟨(List.append_nil _).symm, rfl⟩

theorem Makes.trans {first second : List Message} {s t u : Watch τ} (h : Makes first s t) (k : Makes second t u) :
    Makes (first ++ second) s u :=
  ⟨by rw [k.built, h.built, List.append_assoc], k.answered.trans h.answered⟩

theorem makes_replySend (m : Message) (s : Watch τ) : Makes [m] s ((watchedPort port).replySend m s).2 := ⟨rfl, rfl⟩

theorem replyBegin_refused {origin : UInt32} {s : Watch τ} {f : ChannelFault} {line : τ}
    (begun : port.replyBegin origin s.2.line = (.error f, line)) :
    (watchedPort port).replyBegin origin s = (.error f, s.1, { s.2 with line }) := by
  simp only [watchedPort, ServerPort.within, Part.lift, Watched.port, begun]

theorem replyBegin_opened {origin : UInt32} {s : Watch τ} {line : τ}
    (begun : port.replyBegin origin s.2.line = (.ok (), line)) :
    (watchedPort port).replyBegin origin s =
      (.ok (), s.1, { s.2 with line, answered := s.2.answered ++ [s.2.current] }) := by
  simp only [watchedPort, ServerPort.within, Part.lift, Watched.port, begun]

theorem makes_findNext (query : String) (first : Bool) (s : Watch τ) :
    Makes [] s ((watchedStore τ).findNext query first s).2 := ⟨(List.append_nil _).symm, rfl⟩

theorem makes_change (c : Change) (s : Watch τ) : Makes [] s ((watchedStore τ).change c s).2 :=
  ⟨(List.append_nil _).symm, rfl⟩

theorem findNext_watchedStore (query : String) (first : Bool) (s : Watch τ) :
    (∀ e, ((watchedStore τ).findNext query first s).1 = some e → e ∈ s.1.1.tables.catalogs.rows) ∧
      ∃ scan, ((watchedStore τ).findNext query first s).2.1.1.tables = { s.1.1.tables with scan } := by
  obtain ⟨entry, after⟩ := Repository.findNext_tables query first s.1.1
  obtain ⟨scan, same⟩ := Store.findNext_eq query first s.1.1.tables
  refine ⟨fun e he => Store.mem_of_findNext (entry.symm.trans he), scan, ?_⟩
  exact after.trans same

theorem stream_watched (m : Message) (query : String) (room : Nat) (first : Bool) {s : Watch τ}
    (rows : s.1.1.tables.Encodes) :
    ∃ replies, Makes replies s (stream (watchedStore τ) (watchedPort port) m query room first s)
      ∧ (stream (watchedStore τ) (watchedPort port) m query room first s).1.1.tables.Encodes
      ∧ (m.track.Encodes → ∀ r ∈ replies, r.Encodes)
      ∧ (0 < room → (∀ r ∈ replies, r.Encodes) → m.track.Encodes) := by
  induction room generalizing first s with
  | zero => exact ⟨[], .refl s, rows, by simp, by simp⟩
  | succ room ih =>
    obtain ⟨there, scan, same⟩ := findNext_watchedStore query first s
    have looked := makes_findNext query first s
    rcases scanned : (watchedStore τ).findNext query first s with ⟨entry, t⟩
    rw [scanned] at there same looked
    have rows' : t.1.1.tables.Encodes := same ▸ ⟨rows.catalogs, rows.tracks⟩
    cases entry with
    | none =>
      rw [stream_ended scanned]
      refine ⟨[m.noMore], looked.trans (makes_replySend port m.noMore t), rows', ?_, ?_⟩
      · simp [Message.encodes_noMore]
      · simp [Message.encodes_noMore]
    | some e =>
      have fits : e.Encodes := rows.catalogs e (there e rfl)
      have made := makes_replySend port (m.found e) t
      have kept : ((watchedPort port).replySend (m.found e) t).2.1.1.tables = t.1.1.tables := rfl
      rcases sent : (watchedPort port).replySend (m.found e) t with ⟨outcome, u⟩
      rw [sent] at made kept
      have rows'' : u.1.1.tables.Encodes := kept ▸ rows'
      cases outcome with
      | ok =>
        obtain ⟨replies, makes, last, all, -⟩ := ih false rows''
        rw [stream_sent scanned sent]
        refine ⟨m.found e :: replies, looked.trans (made.trans makes), last, ?_, ?_⟩
        · intro track r hr
          obtain rfl | hr := List.mem_cons.1 hr
          · exact Message.encodes_found.2 ⟨fits, track⟩
          · exact all track r hr
        · intro _ every
          exact (Message.encodes_found.1 (every _ List.mem_cons_self)).2
      | error cause =>
        rw [stream_lost scanned sent]
        refine ⟨[m.found e, m.cutShort cause],
          looked.trans (made.trans (makes_replySend port (m.cutShort cause) u)), rows'', ?_, ?_⟩
        · intro track
          simp [Message.encodes_found, Message.encodes_cutShort, fits, track]
        · intro _ every
          exact (Message.encodes_found.1 (every _ List.mem_cons_self)).2

theorem encodes_changeOf {m : Message} {c : Change} (asks : changeOf m.request = some c) (h : m.Echoes) :
    c.Encodes := by
  unfold Message.request at asks
  unfold Message.Echoes at h
  cases operation : m.operation <;> rw [operation] at asks h <;> cases asks
  case addCatalog => exact h.1
  case addTrack => exact h.2
  all_goals trivial

theorem change_watched {m : Message} {c : Change} {s : Watch τ} (rows : s.1.1.tables.Encodes)
    (asks : changeOf m.request = some c) (both : m.Echoes ↔ m.catalog.Encodes ∧ m.track.Encodes) :
    ∃ replies, Makes replies s
        ((watchedPort port).replySend (m.conclusion ((watchedStore τ).change c s).1)
          ((watchedStore τ).change c s).2).2
      ∧ (m.Echoes → ((watchedPort port).replySend (m.conclusion ((watchedStore τ).change c s).1)
          ((watchedStore τ).change c s).2).2.1.1.tables.Encodes)
      ∧ ((∀ r ∈ replies, r.Encodes) ↔ m.Echoes) := by
  refine ⟨[m.conclusion ((watchedStore τ).change c s).1],
    (makes_change c s).trans (makes_replySend port _ _), fun echoes => ?_, ?_⟩
  · obtain same | made := Repository.change_tables c s.1.1 s.1.2
    · exact same.symm ▸ rows
    · exact rows.apply (encodes_changeOf asks echoes) made
  · rw [List.forall_mem_singleton, Message.encodes_conclusion, both]

/-- Answering a message makes replies that fit exactly if the slots do that they repeat, and if these
do it keeps the rows such that they fit. -/
theorem answer_watched (m : Message) {s : Watch τ} (rows : s.1.1.tables.Encodes) :
    ∃ replies, Makes replies s (answer (watchedStore τ) (watchedPort port) m s)
      ∧ (m.Echoes → (answer (watchedStore τ) (watchedPort port) m s).1.1.tables.Encodes)
      ∧ ((∀ r ∈ replies, r.Encodes) ↔ m.Echoes) := by
  cases operation : m.operation with
  | findCatalog =>
    have request : m.request = .findCatalog m.catalog.catalog := by rw [Message.request, operation]
    have echoes : m.Echoes ↔ m.track.Encodes := by rw [Message.Echoes, operation]
    obtain ⟨replies, makes, kept, all, only⟩ := stream_watched port m m.catalog.catalog
      ((watchedStore τ).size s + 1) true rows
    simp only [answer, request]
    exact ⟨replies, makes, fun _ => kept, ⟨fun h => echoes.2 (only (Nat.succ_pos _) h), fun h => all (echoes.1 h)⟩⟩
  | getCatalog =>
    have request : m.request = .getCatalog m.catalog.catalog := by rw [Message.request, operation]
    have echoes : m.Echoes ↔ m.track.Encodes := by rw [Message.Echoes, operation]
    have row : (((watchedStore τ).catalog? m.catalog.catalog s).getD {}).Encodes := rows.catalog? _
    simp only [answer, request]
    refine ⟨_, makes_replySend port _ s, fun _ => rows, ?_⟩
    simp [Message.encodes_iff, Message.reply, row, echoes]
  | getTrack =>
    have request : m.request = .getTrack m.track.catalog m.track.number := by rw [Message.request, operation]
    have echoes : m.Echoes ↔ m.catalog.Encodes := by rw [Message.Echoes, operation]
    have row : (((watchedStore τ).track? m.track.catalog m.track.number s).getD {}).Encodes := rows.track? _ _
    simp only [answer, request]
    refine ⟨_, makes_replySend port _ s, fun _ => rows, ?_⟩
    simp [Message.encodes_iff, Message.reply, row, echoes]
  | createDatabase | addCatalog | addTrack | deleteCatalog | deleteTrack =>
    have both : m.Echoes ↔ m.catalog.Encodes ∧ m.track.Encodes := by rw [Message.Echoes, operation]
    obtain ⟨c, asks⟩ : ∃ c, changeOf m.request = some c := by
      rw [Message.request, operation]
      exact ⟨_, rfl⟩
    rw [answer_of_change asks]
    exact change_watched port rows asks both

/-- A frame of which every slot that replies repeat ends in a NUL, or that is no message at all. -/
def Terminated (frame : List UInt8) : Prop :=
  ∀ m, Message.decode frame = .ok m → ∀ s ∈ m.operation.repeated, 0 ∈ s.block frame

def Adds (s t : Watch τ) : Prop :=
  ∃ replies frames, t.2.built = s.2.built ++ replies ∧ t.2.answered = s.2.answered ++ frames
    ∧ ((∀ r ∈ replies, r.Encodes) ↔ ∀ frame ∈ frames, Terminated frame)
    ∧ ((∀ frame ∈ frames, Terminated frame) → t.1.1.tables.Encodes)

theorem adds_nothing {s t : Watch τ} (rows : s.1.1.tables.Encodes) (store : t.1 = s.1) (built : t.2.built = s.2.built)
    (answered : t.2.answered = s.2.answered) : Adds s t :=
  ⟨[], [], by simp [built], by simp [answered], by simp, fun _ => store.symm ▸ rows⟩

theorem dispatch_adds {m : Message} {s : Watch τ} (decoded : Message.decode s.2.current = .ok m)
    (rows : s.1.1.tables.Encodes) : Adds s (dispatch (watchedStore τ) (watchedPort port) m s) := by
  have terminated : Terminated s.2.current ↔ m.Echoes := by
    rw [Message.echoes_iff_of_decode decoded]
    refine ⟨fun h => h m decoded, fun h m' decoded' => ?_⟩
    cases decoded.symm.trans decoded'
    exact h
  rcases begun : port.replyBegin m.origin s.2.line with ⟨f | ⟨⟩, line⟩
  · rw [dispatch_unbegun (replyBegin_refused port begun)]
    exact adds_nothing rows rfl rfl rfl
  · obtain ⟨replies, makes, kept, fits⟩ := answer_watched port m
      (s := (s.1, { s.2 with line, answered := s.2.answered ++ [s.2.current] })) rows
    rw [dispatch_begun (replyBegin_opened port begun)]
    refine ⟨replies, [s.2.current], makes.built, makes.answered, ?_, ?_⟩
    · rw [List.forall_mem_singleton, terminated, fits]
    · rw [List.forall_mem_singleton, terminated]
      exact kept

theorem reject_adds {cause : FrameFault} {s : Watch τ} (undecoded : Message.decode s.2.current = .error cause)
    (origin : UInt32) (rows : s.1.1.tables.Encodes) : Adds s (reject (watchedPort port) origin cause s) := by
  have terminated : Terminated s.2.current := fun m decoded => by
    rw [undecoded] at decoded
    cases decoded
  rcases begun : port.replyBegin origin s.2.line with ⟨f | ⟨⟩, line⟩
  · rw [reject_unbegun (replyBegin_refused port begun)]
    exact adds_nothing rows rfl rfl rfl
  · rw [reject_begun (replyBegin_opened port begun)]
    refine ⟨[.rejection origin (commandFailed cause.message)], [s.2.current], rfl, rfl, ?_, fun _ => rows⟩
    simp [Message.encodes_rejection, terminated]

theorem handleNext_adds {v : Service (Watch τ)} (rows : v.world.1.1.tables.Encodes) :
    Adds v.world (handleNext (watchedStore τ) (watchedPort port) v).2.world := by
  obtain ⟨⟨store, line, waiting, current, answered, built⟩, handled⟩ := v
  cases waiting with
  | nil => exact adds_nothing rows rfl rfl rfl
  | cons frame waiting =>
    have received : (watchedPort port).receive (store, ⟨line, frame :: waiting, current, answered, built⟩) =
        (messageOfFrame frame, store, ⟨line, waiting, frame, answered, built⟩) := rfl
    obtain ⟨m, outcome, done⟩ | ⟨origin, cause, outcome, done⟩ | ⟨fault, -, -, done⟩ :=
      handleNext_cases (watchedStore τ) (v := ⟨_, handled⟩) received
    · rw [done]
      exact dispatch_adds port (decode_of_messageOfFrame outcome) rows
    · rw [done]
      exact reject_adds port (undecoded_of_messageOfFrame outcome) origin rows
    · rw [done]
      exact adds_nothing rows rfl rfl rfl

/-- Whatever line of frames a server is given over whatever channel, its rows and its replies all fit
frames at every time exactly if every frame is terminated that it answers. -/
theorem fits_iff_terminated (repository : Repository) (host : Host) (line : τ) (frames : List (List UInt8))
    (rows : repository.tables.Encodes) :
    let start : Service (Watch τ) := { world := ((repository, host), { line, waiting := frames }) }
    (∀ count, (after port count start).world.1.1.tables.Encodes ∧
        ∀ r ∈ (after port count start).world.2.built, r.Encodes) ↔
      ∀ count, ∀ frame ∈ (after port count start).world.2.answered, Terminated frame := by
  intro start
  have step (count : Nat) (rows : (after port count start).world.1.1.tables.Encodes) :=
    handleNext_adds port rows
  constructor
  · intro fits count
    induction count with
    | zero => simp [after, start]
    | succ count ih =>
      obtain ⟨replies, answered, built, noted, same, -⟩ := step count (fits count).1
      have all : ∀ r ∈ replies, r.Encodes := fun r hr => (fits (count + 1)).2 r <| by
        rw [after, built]
        exact List.mem_append_right _ hr
      rw [after, noted]
      exact List.forall_mem_append.2 ⟨ih, same.1 all⟩
  · intro terminated count
    induction count with
    | zero => exact ⟨rows, by simp [after, start]⟩
    | succ count ih =>
      obtain ⟨replies, answered, built, noted, same, kept⟩ := step count ih.1
      have all : ∀ frame ∈ answered, Terminated frame := fun frame hf => terminated (count + 1) frame <| by
        rw [after, noted]
        exact List.mem_append_right _ hf
      refine ⟨kept all, ?_⟩
      rw [after, built]
      exact List.forall_mem_append.2 ⟨ih.2, same.2 all⟩

/-- A channel on which every reply goes through that fits a frame. -/
def accepting : ServerPort Unit where
  receive s := (.error .closed, s)
  replyBegin _ s := (.ok (), s)
  replySend m s :=
    match m.encode with
    | .ok _ => (.ok (), s)
    | .error f => (.error (.frame f), s)
  replyEnd s := s
  close s := s
  backlog _ := 0

theorem fits_iff_terminated_accepting :
    let frames := [(Message.ofRequest 7 (.getCatalog "CD1")).frame]
    let start : Service (Watch Unit) := { world := ((.memory {}, Host.fresh []), { line := (), waiting := frames }) }
    ({} : Store).Encodes ∧
      ((∀ count, (after accepting count start).world.1.1.tables.Encodes ∧
          ∀ r ∈ (after accepting count start).world.2.built, r.Encodes) ↔
        ∀ count, ∀ frame ∈ (after accepting count start).world.2.answered, Terminated frame) :=
  ⟨Store.encodes_empty, fits_iff_terminated accepting (.memory {}) (Host.fresh []) () _ Store.encodes_empty⟩

theorem after_added {frame : List UInt8} {m : Message} {e : CatalogEntry} (decoded : Message.decode frame = .ok m)
    (request : m.request = .addCatalog e) (key : checkKey e.catalog = .ok ()) (host : Host) :
    let start : Service (Watch Unit) := { world := ((.memory {}, host), { line := (), waiting := [frame] }) }
    (after accepting 1 start).world.1.1.tables.catalogs.rows = [e]
      ∧ (after accepting 1 start).world.2.built = [m.reply .ok] := by
  have received : messageOfFrame frame = .ok m := by rw [messageOfFrame, decoded]
  have added : ({} : Store).apply (.putCatalog e) = .ok { catalogs := Table.empty.insert e } := by
    rw [Store.apply_putCatalog, key]
    rfl
  simp only [after, handleNext, watchedPort, ServerPort.within, Part.lift, Watched.port, received, dispatch,
    accepting, answer, request, changeOf, watchedStore, RecordStore.within, Repository.recordStore,
    Repository.change, added]
  exact ⟨rfl, rfl⟩

/-- A request to add an entry whose title fills its slot to the last byte. -/
def unterminated : List UInt8 :=
  Frame.header { operation := .addCatalog, origin := 7 } ++ Slot.catalog.filled "CD1"
    ++ List.replicate Slot.title.width 0x41 ++ List.replicate (Frame.size - Slot.kind.offset) 0

set_option maxRecDepth 4096 in
theorem decode_unterminated :
    Message.decode unterminated = .ok { operation := .addCatalog, origin := 7, catalog :=
      { catalog := "CD1", title := String.ofList (List.replicate Slot.title.width 'A') } } := by
  have blank {s : Slot} {block : List UInt8} (none : block.takeWhile (· ≠ 0) = []) : s.read block = .ok "" :=
    Slot.read_eq_ok_iff.2 none.symm
  have long : Text.bytes (String.ofList (List.replicate Slot.title.width 'A')) = List.replicate Slot.title.width 0x41 := by
    rw [Text.toList_bytes, String.toList_ofList]
    decide
  have catalog : CatalogEntry.ofBlock ((unterminated.drop Frame.headerSize).take CatalogEntry.frameSize) =
      .ok { catalog := "CD1", title := String.ofList (List.replicate Slot.title.width 'A') } := by
    generalize block : (unterminated.drop Frame.headerSize).take CatalogEntry.frameSize = part
    have key : Slot.catalog.read (part.take Slot.catalog.width) = .ok "CD1" :=
      Slot.read_eq_ok_iff.2 (by rw [← block]; decide)
    have title : Slot.title.read ((part.drop Slot.catalog.width).take Slot.title.width) =
        .ok (String.ofList (List.replicate Slot.title.width 'A')) :=
      Slot.read_eq_ok_iff.2 (long.trans (by rw [← block]; decide))
    have kind : Slot.kind.read (((part.drop Slot.catalog.width).drop Slot.title.width).take Slot.kind.width) = .ok "" :=
      blank (by rw [← block]; decide)
    have artist : Slot.artist.read ((((part.drop Slot.catalog.width).drop Slot.title.width).drop Slot.kind.width).take
        Slot.artist.width) = .ok "" := blank (by rw [← block]; decide)
    unfold CatalogEntry.ofBlock
    simp only [key, title, kind, artist]
    rfl
  have track : TrackEntry.ofBlock (((unterminated.drop Frame.headerSize).drop CatalogEntry.frameSize).take
      TrackEntry.frameSize) = .ok {} := by
    generalize block : ((unterminated.drop Frame.headerSize).drop CatalogEntry.frameSize).take TrackEntry.frameSize = part
    have key : Slot.trackCatalog.read (part.take Slot.trackCatalog.width) = .ok "" := blank (by rw [← block]; decide)
    have text : Slot.trackText.read (((part.drop Slot.trackCatalog.width).drop 4).take Slot.trackText.width) = .ok "" :=
      blank (by rw [← block]; decide)
    have number : LittleEndian.toInt32 ((part.drop Slot.trackCatalog.width).take 4) = 0 := by rw [← block]; decide
    unfold TrackEntry.ofBlock
    simp only [key, text, number]
    rfl
  have diagnostic : Slot.diagnostic.read ((((unterminated.drop Frame.headerSize).drop CatalogEntry.frameSize).drop
      TrackEntry.frameSize).take Slot.diagnostic.width) = .ok "" := blank (by decide)
  have operation : Operation.ofTag? (LittleEndian.decode ((unterminated.drop 6).take 1)) = some .addCatalog := by decide
  have status : Status.ofTag? (LittleEndian.decode ((unterminated.drop 7).take 1)) = some .ok := by decide
  have origin : Frame.headerOrigin unterminated = 7 := by decide
  unfold Message.decode
  rw [if_neg (by decide), if_neg (by decide), if_neg (by decide)]
  simp only [operation, status, catalog, track, diagnostic, origin]
  rfl

/-- The entry is stored, but neither the row nor the reply fits a frame. -/
theorem unfit_after_unterminated :
    let start : Service (Watch Unit) :=
      { world := ((.memory {}, Host.fresh []), { line := (), waiting := [unterminated] }) }
    ({} : Store).Encodes ∧ ¬ (after accepting 1 start).world.1.1.tables.Encodes ∧
      ∃ r ∈ (after accepting 1 start).world.2.built, ¬ r.Encodes := by
  intro start
  obtain ⟨rows, built⟩ := after_added decode_unterminated rfl (by decide) (Host.fresh [])
  have long : ¬ Slot.title.Fits (String.ofList (List.replicate Slot.title.width 'A')) := by
    intro fits
    have size := fits.1
    rw [Text.utf8ByteSize_ofList] at size
    exact absurd size (by decide)
  have unfit : ∀ e : CatalogEntry, ¬ Slot.title.Fits e.title → ¬ e.Encodes := fun e long fits =>
    long (CatalogEntry.encodes_iff.1 fits (.title, e.title) (by simp [CatalogEntry.texts]))
  refine ⟨Store.encodes_empty, fun fits => ?_, ?_⟩
  · exact unfit _ long (fits.catalogs _ (by rw [rows]; exact List.mem_cons_self))
  · rw [built]
    exact ⟨_, List.mem_cons_self, fun fits => unfit _ long (Message.encodes_iff.1 fits).1⟩

end Server

end DiscCatalog
