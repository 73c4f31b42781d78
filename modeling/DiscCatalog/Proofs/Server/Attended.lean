import DiscCatalog.Channel.Script
import DiscCatalog.Proofs.Server.Effects
import DiscCatalog.Proofs.Server.Sessions

namespace DiscCatalog

namespace Repository

def rescanned (scan : Scan) : Repository → Repository
  | memory tables => memory { tables with scan }
  | archive opened => archive { opened with tables := { opened.tables with scan } }

theorem rescanned_rescanned (scan earlier : Scan) (r : Repository) :
    (r.rescanned earlier).rescanned scan = r.rescanned scan := by
  cases r <;> rfl

theorem exists_rescanned (r : Repository) : ∃ scan, r.rescanned scan = r := by
  cases r with
  | memory tables => exact ⟨tables.scan, rfl⟩
  | archive opened => exact ⟨opened.tables.scan, rfl⟩

theorem findNext_rescanned (query : String) (first : Bool) (r : Repository) :
    ∃ scan, (r.findNext query first).2 = r.rescanned scan := by
  obtain ⟨scan, same⟩ := Store.findNext_eq query first r.tables
  refine ⟨scan, ?_⟩
  cases r with
  | memory tables => exact congrArg memory same
  | archive opened => exact congrArg (fun tables => archive { opened with tables }) same

end Repository

namespace ServerCall

/-- The messages that went through to the client. -/
def given (calls : List ServerCall) : List Message :=
  calls.filterMap fun
    | .sent m (.ok ()) => some m
    | _ => none

/-- Of a line of replies, either all go through and nothing else is sent, or fewer messages go through
than there are replies. -/
theorem Delivery.given_or {m : Message} {replies : List Message} {sends : List ServerCall}
    (h : Delivery m replies sends) :
    (given sends = replies ∧ ∀ r fault, .sent r (.error fault) ∉ sends) ∨
      ((given sends).length < replies.length ∧ ∃ r fault, .sent r (.error fault) ∈ sends) := by
  induction h with
  | last r outcome =>
    cases outcome with
    | ok => exact .inl ⟨rfl, by simp⟩
    | error fault => exact .inr ⟨Nat.one_pos, r, fault, List.mem_singleton_self _⟩
  | @through r rest sends _ ih =>
    obtain ⟨all, none⟩ | ⟨fewer, r', fault, there⟩ := ih
    · refine .inl ⟨congrArg (r :: ·) all, fun r' fault there => ?_⟩
      obtain there | there := List.mem_cons.1 there
      · cases there
      · exact none r' fault there
    · exact .inr ⟨Nat.succ_lt_succ fewer, r', fault, List.mem_cons_of_mem _ there⟩
  | @broken r rest cause outcome more =>
    refine .inr ⟨?_, r, cause, List.mem_cons_self⟩
    have atMost : (given [.sent r (.error cause), .sent (m.cutShort cause) outcome]).length ≤ 1 := by
      cases outcome with
      | ok => exact Nat.le_refl 1
      | error => exact Nat.zero_le 1
    have several := List.length_pos_iff.2 more
    rw [List.length_cons]
    omega

end ServerCall

namespace Server

variable {τ : Type} (port : ServerPort τ)

/-- The whole answer to a request, by the store as it is when the request is carried out. -/
def answersTo (m : Message) (s : Repository × Host) : List Message :=
  match changeOf m.request with
  | some c => [m.conclusion (Repository.change c s).1]
  | none => repliesTo m s.1.tables

def carriedOut (m : Message) (s : Repository × Host) : Repository × Host :=
  match changeOf m.request with
  | some c => (Repository.change c s).2
  | none => s

theorem stream_rescans (m : Message) (query : String) {room : Nat} (first : Bool) (r : Repository) (h : Host) (w : τ)
    (enough : (r.pending query first).length < room) :
    ∃ scan, stream (Repository.recordStore.beside τ) (port.beside _) m query room first ((r, h), w) =
      ((r.rescanned scan, h), deliver port m ((r.pending query first).map m.found ++ [m.noMore]) w) := by
  induction room generalizing first r w with
  | zero => exact absurd enough (Nat.not_lt_zero _)
  | succ room ih =>
    have scanned : (Repository.recordStore.beside τ).findNext query first ((r, h), w) =
        ((r.findNext query first).1, ((r.findNext query first).2, h), w) := rfl
    obtain ⟨place, moved⟩ := r.findNext_rescanned query first
    rw [moved] at scanned
    cases found : r.pending query first with
    | nil =>
      rw [Repository.findNext_of_nil found] at scanned
      rw [stream_ended scanned]
      exact ⟨place, rfl⟩
    | cons e rest =>
      obtain ⟨given, left⟩ := Repository.findNext_of_cons found
      have more : rest.map m.found ++ [m.noMore] ≠ [] := by simp
      rw [given] at scanned
      rw [List.map_cons, List.cons_append, deliver_cons port m _ more]
      have sent : (port.beside (Repository × Host)).replySend (m.found e) ((r.rescanned place, h), w) =
          ((port.replySend (m.found e) w).1, (r.rescanned place, h), (port.replySend (m.found e) w).2) := rfl
      generalize port.replySend (m.found e) w = reply at sent ⊢
      obtain ⟨cause | ⟨⟩, w'⟩ := reply
      · rw [stream_lost scanned sent]
        exact ⟨place, rfl⟩
      · rw [stream_sent scanned sent]
        rw [moved] at left
        have fewer : ((r.rescanned place).pending query false).length < room := by
          rw [left]
          rw [found, List.length_cons] at enough
          omega
        obtain ⟨scan, same⟩ := ih false (r.rescanned place) w' fewer
        rw [left, Repository.rescanned_rescanned] at same
        exact ⟨scan, same⟩

theorem answer_rescans (m : Message) (s : Repository × Host) (w : τ) :
    ∃ scan, answer (Repository.recordStore.beside τ) (port.beside _) m (s, w) =
      (((carriedOut m s).1.rescanned scan, (carriedOut m s).2), deliver port m (answersTo m s) w) := by
  obtain ⟨r, h⟩ := s
  unfold answer answersTo carriedOut repliesTo
  cases m.request with
  | findCatalog query => exact stream_rescans port m query true r h w (Nat.lt_succ_of_le (r.length_pending_le query true))
  | getCatalog | getTrack =>
    obtain ⟨scan, same⟩ := r.exists_rescanned
    exact ⟨scan, congrArg (fun r => ((r, h), _)) same.symm⟩
  | createDatabase | addCatalog | addTrack | deleteCatalog | deleteTrack =>
    dsimp only [changeOf]
    obtain ⟨scan, same⟩ := (Repository.change _ (r, h)).2.1.exists_rescanned
    refine ⟨scan, ?_⟩
    rw [same]
    rfl

inductive Attends (m : Message) (s t : Repository × Host) : List ServerCall → Prop
  | dropped (fault : ChannelFault) : t = s → Attends m s t [.begun m.origin (.error fault)]
  | answered {sends : List ServerCall} (scan : Scan) : ServerCall.Delivery m (answersTo m s) sends →
      t = ((carriedOut m s).1.rescanned scan, (carriedOut m s).2) →
      Attends m s t (.begun m.origin (.ok ()) :: (sends ++ [.ended]))

structure Attended (m : Message) (s t : Repository × Host) (calls : List ServerCall) : Prop where
  attends : Attends m s t calls
  whole : ServerCall.given calls = answersTo m s ↔
    .begun m.origin (.ok ()) ∈ calls ∧ ∀ r fault, .sent r (.error fault) ∉ calls

theorem answersTo_ne_nil (m : Message) (s : Repository × Host) : answersTo m s ≠ [] := by
  unfold answersTo
  cases changeOf m.request with
  | some c => exact List.cons_ne_nil _ _
  | none => exact repliesTo_ne_nil m _

theorem Attends.attended {m : Message} {s t : Repository × Host} {calls : List ServerCall}
    (h : Attends m s t calls) : Attended m s t calls := by
  refine ⟨h, ?_⟩
  cases h with
  | dropped fault same =>
    refine iff_of_false (answersTo_ne_nil m s).symm fun both => ?_
    cases List.mem_singleton.1 both.1
  | @answered sends scan delivery after =>
    have given : ServerCall.given (.begun m.origin (.ok ()) :: (sends ++ [.ended])) = ServerCall.given sends := by
      simp [ServerCall.given]
    have failed (r : Message) (fault : ChannelFault) :
        ServerCall.sent r (.error fault) ∈ ServerCall.begun m.origin (.ok ()) :: (sends ++ [.ended]) ↔
          ServerCall.sent r (.error fault) ∈ sends := by
      simp
    rw [given]
    simp only [failed]
    obtain ⟨all, none⟩ | ⟨fewer, r, fault, there⟩ := delivery.given_or
    · exact iff_of_true all ⟨List.mem_cons_self, none⟩
    · exact iff_of_false (fun all => absurd fewer (all ▸ Nat.lt_irrefl _)) fun both => both.2 r fault there

theorem dispatch_attends (m : Message) (s : Noted τ) :
    ∃ calls, Notes s (dispatch (notedStore τ) (notedPort port) m s) calls ∧
      Attends m s.1 (dispatch (notedStore τ) (notedPort port) m s).1 calls := by
  rcases begun : port.replyBegin m.origin s.2.1 with ⟨fault | ⟨⟩, w⟩
  · rw [dispatch_unbegun (ServerPort.replyBegin_noting begun)]
    exact ⟨_, rfl, .dropped fault rfl⟩
  · obtain ⟨scan, done⟩ := answer_rescans port.noting m s.1 (w, s.2.2 ++ [.begun m.origin (.ok ())])
    obtain ⟨sends, delivery, noted, -⟩ := deliver_noting port m (answersTo_ne_nil m s.1)
      (w, s.2.2 ++ [.begun m.origin (.ok ())])
    rw [dispatch_begun (ServerPort.replyBegin_noting begun), done]
    refine ⟨_, ?_, .answered scan delivery rfl⟩
    change (deliver port.noting m (answersTo m s.1) _).2 ++ [ServerCall.ended] = _
    rw [noted, List.append_assoc, List.append_assoc]
    rfl

/-- What a server does between one question whether to stop and the next, or its end: it receives once,
and is done with what it received. -/
def Round (v u : Service (Noted τ)) : Prop :=
  ∃ outcome calls, Notes v.world u.world (.received outcome :: calls) ∧
    ∀ m, outcome = .ok m → Attended m v.world.1 u.world.1 calls

theorem handleNext_round (v : Service (Noted τ)) : Round v (handleNext (notedStore τ) (notedPort port) v).2 := by
  rcases taken : port.receive v.world.2.1 with ⟨outcome, w⟩
  have first : Notes v.world (v.world.1, w, v.world.2.2 ++ [.received outcome]) [.received outcome] := rfl
  have other (fault : ChannelFault) (calls : List ServerCall) (u : Service (Noted τ))
      (noted : Notes v.world u.world (.received (.error fault) :: calls)) : Round v u :=
    ⟨_, calls, noted, fun m same => by cases same⟩
  obtain ⟨m, rfl, done⟩ | ⟨origin, cause, rfl, done⟩ | ⟨fault, rfl, -, done⟩ :=
    handleNext_cases (notedStore τ) (ServerPort.receive_noting taken)
  · obtain ⟨calls, noted, attends⟩ := dispatch_attends port m (v.world.1, w, v.world.2.2 ++ [.received (.ok m)])
    rw [done]
    refine ⟨.ok m, calls, first.trans noted, ?_⟩
    rintro _ ⟨⟩
    exact attends.attended
  · obtain ⟨calls, -, noted⟩ := reject_notes port origin cause
      (v.world.1, w, v.world.2.2 ++ [.received (.error (.malformed (some origin) cause))])
    rw [done]
    exact other _ calls _ (first.trans noted)
  · rw [done]
    exact other fault [] _ first

variable {σ : Type}

/-- A run is so many receives, with a question whether to stop before each of them and one more unless
the last receive ended it. -/
structure Asks (store : RecordStore σ) (port : ServerPort σ) (stop : Nat → Bool) (room checks : Nat) (v : Service σ)
    (count : Nat) : Prop where
  ends : (serve store port stop room checks v).service = receiving store port count v
  asked : (serve store port stop room checks v).checks = checks + count
    ∨ (serve store port stop room checks v).checks = checks + count + 1
  /-- The server when it asks for the `k`-th time, counted from zero. -/
  between : ∀ k, checks + k < (serve store port stop room checks v).checks →
    serve store port stop room checks v = serve store port stop (room - k) (checks + k) (receiving store port k v)

theorem serve_asks (store : RecordStore σ) (port : ServerPort σ) (stop : Nat → Bool) (room checks : Nat) (v : Service σ) :
    ∃ count, Asks store port stop room checks v count := by
  have once (room checks : Nat) (v : Service σ) (run : serve store port stop room checks v = ⟨.ok (), checks + 1, v⟩) :
      Asks store port stop room checks v 0 := by
    refine ⟨by rw [run]; rfl, .inr (by rw [run]), fun k below => ?_⟩
    rw [run] at below
    obtain rfl : k = 0 := by dsimp only at below; omega
    rfl
  induction room generalizing checks v with
  | zero => exact ⟨0, once 0 checks v serve_zero⟩
  | succ room ih =>
    cases told : stop checks with
    | true => exact ⟨0, once (room + 1) checks v (serve_stopped told)⟩
    | false =>
      -- A receive follows, after which the run goes on with the next question or is over.
      have step (count : Nat) :
          receiving store port (count + 1) v = receiving store port count (handleNext store port v).2 := rfl
      obtain goes | ⟨f, ends⟩ := serve_succ room told v
      · obtain ⟨count, ends, asked, between⟩ := ih (checks + 1) (handleNext store port v).2
        refine ⟨count + 1, ?_, ?_, fun k below => ?_⟩
        · rw [goes, ends, step]
        · rw [goes]
          omega
        · cases k with
          | zero => rfl
          | succ k =>
            rw [goes] at below ⊢
            rw [between k (by omega), step]
            congr 1 <;> omega
      · refine ⟨1, by rw [ends]; rfl, .inl (by rw [ends]), fun k below => ?_⟩
        rw [ends] at below
        obtain rfl : k = 0 := by dsimp only at below; omega
        rfl

theorem receiving_succ (store : RecordStore σ) (port : ServerPort σ) (count : Nat) (v : Service σ) :
    receiving store port (count + 1) v = (handleNext store port (receiving store port count v)).2 := by
  induction count generalizing v with
  | zero => rfl
  | succ count ih => rw [receiving, ih, receiving]

/-- Over every store and every channel, a run until it is stopped asks whether to stop before each receive,
and between two questions, or a question and the end, it is done with what it received. -/
theorem received_then_attended (repository : Repository) (host : Host) (w : τ) (stop : Nat → Bool) :
    let start : Service (Noted τ) := { world := ((repository, host), w, []) }
    let after := fun count => receiving (notedStore τ) (notedPort port) count start
    let run := serve (notedStore τ) (notedPort port) stop (port.backlog w + 1) 0 start
    ∃ count, Asks (notedStore τ) (notedPort port) stop (port.backlog w + 1) 0 start count ∧
      (∀ k < count, Round (after k) (after (k + 1))) ∧
      runUntil (notedStore τ) (notedPort port) stop start =
        { run with service := { after count with world := (notedPort port).close (after count).world } } := by
  intro start after run
  obtain ⟨count, asks⟩ := serve_asks (notedStore τ) (notedPort port) stop (port.backlog w + 1) 0 start
  refine ⟨count, asks, fun k _ => ?_, ?_⟩
  · change Round (after k) (receiving (notedStore τ) (notedPort port) (k + 1) start)
    rw [receiving_succ]
    exact handleNext_round port (after k)
  · have ends : run.service = after count := asks.ends
    rw [← ends]
    rfl

/-- A signal lands while the only reply is sent. The client is given nothing, although the run comes to an
end without a fault. -/
theorem ungiven_after_signal :
    let m := Message.ofRequest 7 (.getCatalog "CD1")
    let absent : Message := { m with catalog := {} }
    let item : ScriptItem := { outcome := .ok m, failing := [0], failWith := .interrupted }
    let start : Service (Noted ServerScript) := { world := ((.memory {}, Host.fresh []), { items := [item] }, []) }
    let run := runUntil (notedStore _) (notedPort ServerScript.port) (1 ≤ ·) start
    run.outcome = .ok () ∧ run.checks = 2 ∧
      run.service.world.2.2 =
        [.received (.ok m), .begun 7 (.ok ()), .sent absent (.error .interrupted), .ended, .closed] ∧
      answersTo m start.world.1 = [absent] ∧ ServerCall.given run.service.world.2.2 = [] := by
  intro m absent item start run
  have fits : absent.Encodes :=
    Message.encodes_iff.2 ⟨CatalogEntry.encodes_empty, TrackEntry.encodes_empty, Slot.fits_empty _⟩
  have failed : ServerScript.port.replySend absent { items := [], current := some item, events := [.begun 7] } =
      (.error .interrupted, { items := [], current := some item, sends := 1, events := [.begun 7, .sendFailed] }) := by
    unfold ServerScript.port ServerScript.replySend
    dsimp only
    rw [Message.encode_of_encodes fits]
    rfl
  let begun : Noted ServerScript := ((.memory {}, Host.fresh []),
    { items := [], current := some item, events := [.begun 7] }, [.received (.ok m), .begun 7 (.ok ())])
  have sent : (notedPort ServerScript.port).replySend absent begun = (.error .interrupted, begun.1,
      { items := [], current := some item, sends := 1, events := [.begun 7, .sendFailed] },
      [.received (.ok m), .begun 7 (.ok ()), .sent absent (.error .interrupted)]) := by
    simp only [ServerPort.beside, ServerPort.within, Part.lift, ServerPort.noting, begun, failed]
    rfl
  let done : Noted ServerScript :=
    (notedPort ServerScript.port).replyEnd ((notedPort ServerScript.port).replySend absent begun).2
  have answered : handleNext (notedStore _) (notedPort ServerScript.port) start = (.ok (), ⟨done, 1⟩) := rfl
  have ran : run = ⟨.ok (), 2, (notedPort ServerScript.port).close done, 1⟩ := by
    have first : serve (notedStore _) (notedPort ServerScript.port) (1 ≤ ·) 2 0 start =
        serve (notedStore _) (notedPort ServerScript.port) (1 ≤ ·) 1 1 ⟨done, 1⟩ := by
      rw [serve, if_neg (by decide), answered]
    change ({ serve _ _ _ 2 0 start with service := _ } : Run _) = _
    rw [first]
    rfl
  have noted : done.2.2 = [.received (.ok m), .begun 7 (.ok ()), .sent absent (.error .interrupted), .ended] := by
    simp only [done, sent]
    rfl
  have log : run.service.world.2.2 = done.2.2 ++ [.closed] := by rw [ran]; rfl
  rw [log, noted, ran]
  exact ⟨rfl, rfl, rfl, rfl, rfl⟩

end Server

end DiscCatalog
