import DiscCatalog.Channel.Script
import DiscCatalog.Proofs.Server.Effects
import DiscCatalog.Proofs.Session.Loop

namespace DiscCatalog

namespace ServerCall

/-- The messages that went through, which are those that the client gets. -/
def delivered (calls : List ServerCall) : List Message :=
  calls.filterMap fun
    | .sent m (.ok ()) => some m
    | _ => none

theorem Delivery.of_singleton {m r : Message} {sends : List ServerCall} (h : Delivery m [r] sends) :
    ∃ outcome, sends = [.sent r outcome] := by
  cases h with
  | last outcome => exact ⟨_, rfl⟩
  | through rest => cases rest
  | broken more => exact absurd rfl more

theorem Delivery.of_cons {m r : Message} {rest : List Message} {sends : List ServerCall} (more : rest ≠ [])
    (h : Delivery m (r :: rest) sends) :
    (∃ later, sends = .sent r (.ok ()) :: later ∧ Delivery m rest later) ∨
      ∃ cause outcome, sends = [.sent r (.error cause), .sent (m.cutShort cause) outcome] := by
  cases h with
  | last outcome => exact absurd rfl more
  | through later => exact .inl ⟨_, rfl, later⟩
  | broken _ => exact .inr ⟨_, _, rfl⟩

/-- How many messages went through before the first that did not. -/
def leading : List ServerCall → Nat
  | .sent _ (.ok ()) :: rest => leading rest + 1
  | _ => 0

/-- The last of the messages, if it went through. -/
def closing? (sends : List ServerCall) : Option Message :=
  match sends.getLast? with
  | some (.sent r (.ok ())) => some r
  | _ => none

theorem Delivery.ne_nil {m : Message} {replies : List Message} {sends : List ServerCall}
    (h : Delivery m replies sends) : sends ≠ [] := by
  cases h <;> exact List.cons_ne_nil _ _

theorem closing?_cons (call : ServerCall) {sends : List ServerCall} (some : sends ≠ []) :
    closing? (call :: sends) = closing? sends := by
  unfold closing?
  rw [List.getLast?_cons_of_ne_nil some]

theorem take_leading (sends : List ServerCall) : ∀ call ∈ sends.take (leading sends), ∃ r, call = .sent r (.ok ()) := by
  fun_induction leading sends with
  | case1 r rest ih => exact List.forall_mem_cons.2 ⟨⟨r, rfl⟩, ih⟩
  | case2 => exact fun call there => absurd there (List.not_mem_nil)

/-- The answer to a search goes through as a whole, or stops at an entry and closes with the report of what stopped it,
or has a last message that did not go through. -/
theorem Delivery.ends {m : Message} {found : List CatalogEntry} {sends : List ServerCall}
    (delivery : Delivery m (found.map m.found ++ [m.noMore]) sends) :
    (closing? sends = some m.noMore ∧ found.length ≤ leading sends ∧ ∀ call ∈ sends, ∃ r, call = .sent r (.ok ())) ∨
    (∃ r cause, closing? sends = some (m.cutShort cause) ∧ leading sends < found.length ∧
      sends[leading sends]? = some (.sent r (.error cause))) ∨
    ∃ r cause, closing? sends = none ∧ sends.getLast? = some (.sent r (.error cause)) := by
  induction found generalizing sends with
  | nil =>
    obtain ⟨cause | ⟨⟩, rfl⟩ := delivery.of_singleton
    · exact .inr (.inr ⟨m.noMore, cause, rfl, rfl⟩)
    · exact .inl ⟨rfl, Nat.zero_le _, List.forall_mem_singleton.2 ⟨_, rfl⟩⟩
  | cons e found ih =>
    rw [List.map_cons, List.cons_append] at delivery
    obtain ⟨later, rfl, rest⟩ | ⟨cause, fault | ⟨⟩, rfl⟩ := delivery.of_cons (by simp)
    · rw [closing?_cons _ rest.ne_nil, List.getLast?_cons_of_ne_nil rest.ne_nil]
      obtain ⟨closes, all, through⟩ | ⟨r, cause, closes, few, stopped⟩ | lost := ih rest
      · exact .inl ⟨closes, Nat.succ_le_succ all, List.forall_mem_cons.2 ⟨⟨_, rfl⟩, through⟩⟩
      · exact .inr (.inl ⟨r, cause, closes, Nat.succ_lt_succ few, stopped⟩)
      · exact .inr (.inr lost)
    · exact .inr (.inr ⟨m.cutShort cause, fault, rfl, rfl⟩)
    · exact .inr (.inl ⟨m.found e, cause, rfl, Nat.succ_pos _, rfl⟩)

end ServerCall

namespace ClientScript

/-- A client's end that is given what went through of these calls, and after that the channel is lost. -/
def getting (sends : List ServerCall) (lost : ChannelFault) (c : ClientScript) : ClientScript :=
  { c with replies := (ServerCall.delivered sends).map .ok ++ [.error lost] }

theorem replyReceive_getting (r : Message) (sends : List ServerCall) (lost : ChannelFault) (c : ClientScript) :
    port.replyReceive (c.getting (.sent r (.ok ()) :: sends) lost) = (.ok r, c.getting sends lost) := rfl

theorem replyReceive_lost (sends : List ServerCall) (nothing : ServerCall.delivered sends = []) (lost : ChannelFault)
    (c : ClientScript) : ∃ c', port.replyReceive (c.getting sends lost) = (.error lost, c') := by
  unfold getting
  rw [nothing]
  exact ⟨_, rfl⟩

end ClientScript

namespace Server

def failing (faults : Nat → Option ChannelFault) : ServerPort Nat where
  receive n := (.error .closed, n)
  replyBegin _ n := (.ok (), n)
  replySend m n :=
    match m.encode, faults n with
    | .error f, _ => (.error (.frame f), n + 1)
    | .ok _, some f => (.error f, n + 1)
    | .ok _, none => (.ok (), n + 1)
  replyEnd n := n
  close n := n
  backlog _ := 0

theorem encodes_of_sent {faults : Nat → Option ChannelFault} {r : Message} {n : Nat}
    (through : ((failing faults).replySend r n).1 = .ok ()) : r.Encodes := by
  unfold failing at through
  cases encoded : r.encode with
  | ok frame => exact ⟨frame, encoded⟩
  | error f => simp only [encoded] at through; cases through

theorem deliver_failing (faults : Nat → Option ChannelFault) (m : Message) {replies : List Message} (some : replies ≠ []) :
    ServerCall.Delivery m replies (deliver (failing faults).noting m replies (0, [])).2 ∧
      ∀ r, .sent r (.ok ()) ∈ (deliver (failing faults).noting m replies (0, [])).2 → r.Encodes := by
  obtain ⟨sends, delivery, noted, outcomes⟩ := deliver_noting (failing faults) m some (0, [])
  rw [noted, List.nil_append]
  refine ⟨delivery, fun r there => ?_⟩
  obtain ⟨n, through⟩ := outcomes r _ there
  exact encodes_of_sent through

/-- What a server sends in answer to a search of a client. -/
def burst (s : Store) (query : String) (origin : UInt32) (faults : Nat → Option ChannelFault) : List ServerCall :=
  (answer (memoryBeside _) (besideMemory (failing faults).noting) (.ofRequest origin (.findCatalog query))
    (s, 0, [])).2.2

theorem burst_delivery (s : Store) (query : String) (origin : UInt32) (faults : Nat → Option ChannelFault) :
    ServerCall.Delivery (.ofRequest origin (.findCatalog query))
        ((s.matching query).map (Message.ofRequest origin (.findCatalog query)).found
          ++ [(Message.ofRequest origin (.findCatalog query)).noMore])
        (burst s query origin faults) ∧
      ∀ r, .sent r (.ok ()) ∈ burst s query origin faults → r.Encodes := by
  obtain ⟨scan, answered⟩ := answer_eq (failing faults).noting (.ofRequest origin (.findCatalog query)) s (0, [])
  rw [burst, answered]
  exact deliver_failing faults _ (repliesTo_ne_nil (.ofRequest origin (.findCatalog query)) s)

end Server

namespace Client

/-- What a client may make of a search for which the server made these calls to send the entries found,
when the channel is lost to the client after what went through. -/
inductive Concludes (request : Request) (found : List CatalogEntry) (sends : List ServerCall) (lost : ChannelFault) :
    Except ClientFault Cursor → Prop
  /-- Everything went through, and the cursor brings it all. -/
  | whole {c : Cursor} :
      (∀ call ∈ sends, ∃ r, call = .sent r (.ok ())) → c.truncated = none → c.collect.1 = .ok found →
      Concludes request found sends lost (.ok c)
  /-- The first message that did not go through is that of an entry; the cursor brings those before it, and
  what the server says of the fault. -/
  | told {c : Cursor} (k : Nat) (r : Message) (cause : ChannelFault) :
      k < found.length → (∀ call ∈ sends.take k, ∃ r, call = .sent r (.ok ())) →
      sends[k]? = some (.sent r (.error cause)) →
      c.truncated = some (Message.fitDiagnostic (commandFailed cause.message)) →
      c.collect.1 = .ok (found.take k) → Concludes request found sends lost (.ok c)
  /-- The last message, which would have ended the search, did not go through. -/
  | lost (r : Message) (cause : ChannelFault) :
      sends.getLast? = some (.sent r (.error cause)) → Concludes request found sends lost (.error (.channel lost))
  /-- The request fits no frame and was not sent. -/
  | unsent {fault : FrameFault} :
      request.misfit? = some fault → Concludes request found sends lost (.error (.channel (.frame fault)))

def concluded (read : Ending × Spool) : Except ClientFault Cursor := read.1 >>= read.2.finish

theorem concluded_eq (read : Ending × Spool) : concluded read = cursorOf read := by
  obtain ⟨_ | _, _⟩ := read <;> rfl

theorem collect_holding {entries : List CatalogEntry} (h : ∀ e ∈ entries, e.Encodes) (truncated : Option String) :
    concluded (.ok truncated, Spool.holding entries) = .ok (Cursor.onto entries truncated) ∧
      (Cursor.onto entries truncated).collect.1 = .ok entries :=
  ⟨(concluded_eq _).trans (cursorOf_holding entries truncated), by rw [Cursor.collect_onto h]⟩

/-- Reading what is left of an answer: if its last message went through, the entries before the first loss are kept, and
the search has ended as that message says. -/
theorem drain_getting {m asked : Message} (operation : asked.operation = m.operation) (kept : List CatalogEntry)
    {found : List CatalogEntry} {sends : List ServerCall} (lost : ChannelFault) (keeps : ∀ e ∈ kept, e.Encodes)
    (delivery : ServerCall.Delivery m (found.map m.found ++ [m.noMore]) sends)
    (encode : ∀ r, .sent r (.ok ()) ∈ sends → r.Encodes) {room : Nat}
    (enough : (ServerCall.delivered sends).length ≤ room) (c : ClientScript) :
    let read := (drain ClientScript.port asked none (room + 1) (Spool.holding kept) (c.getting sends lost)).1
    (ServerCall.closing? sends = none → read.1 = .error (.channel lost)) ∧
      ∀ last, ServerCall.closing? sends = some last →
        read = (.ok (if last.status = .failed then some last.diagnostic else none),
          Spool.holding (kept ++ found.take (ServerCall.leading sends))) ∧
        ∀ e ∈ kept ++ found.take (ServerCall.leading sends), e.Encodes := by
  induction found generalizing kept sends room with
  | nil =>
    obtain ⟨cause | ⟨⟩, rfl⟩ := delivery.of_singleton
    · obtain ⟨c', received⟩ := ClientScript.replyReceive_lost [.sent m.noMore (.error cause)] rfl lost c
      rw [drain_failed received]
      exact ⟨fun _ => rfl, fun last closes => by cases closes⟩
    · rw [drain_last (ClientScript.replyReceive_getting m.noMore [] lost c) operation.symm rfl, List.take_nil,
        List.append_nil]
      refine ⟨nofun, fun last closes => ?_⟩
      cases closes
      exact ⟨rfl, keeps⟩
  | cons e found ih =>
    rw [List.map_cons, List.cons_append] at delivery
    obtain ⟨later, rfl, rest⟩ | ⟨cause, fault | ⟨⟩, rfl⟩ := delivery.of_cons (by simp)
    · cases room with
      | zero => cases enough
      | succ room =>
        have fits : (m.found e).catalog.Encodes := (Message.encodes_found.1 (encode _ List.mem_cons_self)).1
        have read := ih (kept ++ [(m.found e).catalog]) (List.forall_mem_append.2 ⟨keeps, by simpa using fits⟩) rest
          (fun r there => encode r (List.mem_cons_of_mem _ there)) (Nat.le_of_succ_le_succ enough)
        rw [List.append_assoc] at read
        rw [drain_entry kept (ClientScript.replyReceive_getting (m.found e) later lost c) operation.symm rfl fits,
          ServerCall.closing?_cons _ rest.ne_nil]
        exact read
    · obtain ⟨c', received⟩ := ClientScript.replyReceive_lost
        [.sent (m.found e) (.error cause), .sent (m.cutShort cause) (.error fault)] rfl lost c
      rw [drain_failed received]
      exact ⟨fun _ => rfl, fun last closes => by cases closes⟩
    · have received : ClientScript.port.replyReceive
          (c.getting [.sent (m.found e) (.error cause), .sent (m.cutShort cause) (.ok ())] lost) =
            (.ok (m.cutShort cause), c.getting [] lost) := rfl
      have nothing : kept ++ (e :: found).take (ServerCall.leading
          [.sent (m.found e) (.error cause), .sent (m.cutShort cause) (.ok ())]) = kept := List.append_nil kept
      rw [drain_cutShort received operation.symm rfl, nothing]
      refine ⟨nofun, fun last closes => ?_⟩
      cases closes
      exact ⟨rfl, keeps⟩

theorem drain_concludes {request : Request} {m asked : Message} (operation : asked.operation = m.operation)
    (kept : List CatalogEntry) {found : List CatalogEntry} (before : List ServerCall) {sends : List ServerCall}
    {lost : ChannelFault} (keeps : ∀ e ∈ kept, e.Encodes)
    (through : ∀ call ∈ before, ∃ r, call = .sent r (.ok ())) (count : before.length = kept.length)
    (delivery : ServerCall.Delivery m (found.map m.found ++ [m.noMore]) sends)
    (encode : ∀ r, .sent r (.ok ()) ∈ sends → r.Encodes) {room : Nat}
    (enough : (ServerCall.delivered sends).length ≤ room) (c : ClientScript) :
    Concludes request (kept ++ found) (before ++ sends) lost (concluded (drain ClientScript.port asked none
      (room + 1) (Spool.holding kept) (c.getting sends lost)).1) := by
  obtain ⟨broken, closed⟩ := drain_getting operation kept lost keeps delivery encode enough c
  obtain ⟨closes, all, rest⟩ | ⟨r, cause, closes, few, stopped⟩ | ⟨r, cause, closes, last⟩ := delivery.ends
  · obtain ⟨read, fits⟩ := closed _ closes
    rw [List.take_of_length_le all] at read fits
    obtain ⟨finished, collected⟩ := collect_holding fits none
    rw [read]
    exact finished ▸ .whole (List.forall_mem_append.2 ⟨through, rest⟩) rfl collected
  · obtain ⟨read, fits⟩ := closed _ closes
    obtain ⟨finished, collected⟩ := collect_holding fits (some (Message.fitDiagnostic (commandFailed cause.message)))
    rw [read]
    refine finished ▸ .told (kept.length + ServerCall.leading sends) r cause ?_ ?_ ?_ rfl ?_
    · rw [List.length_append]
      omega
    · rw [← count, List.take_length_add_append]
      exact List.forall_mem_append.2 ⟨through, ServerCall.take_leading sends⟩
    · rw [← count, List.getElem?_append_right (Nat.le_add_right _ _), Nat.add_sub_cancel_left, stopped]
    · rw [List.take_length_add_append]
      exact collected
  · generalize (drain ClientScript.port asked none (room + 1) (Spool.holding kept) (c.getting sends lost)).1 = read at broken
    obtain ⟨ending, spool⟩ := read
    cases broken closes
    refine .lost r cause ?_
    rw [List.getLast?_append, last]
    rfl

theorem search_sent {σ : Type} {port : ClientPort σ} {query : String} {c : ClientState σ} {sent begun : σ}
    (taken : port.send (.ofRequest (port.origin c.world) (.findCatalog query)) c.world = (.ok (), sent))
    (granted : port.replyBegin sent = (.ok (), begun)) :
    (search port query c).1 = concluded (drain port (.ofRequest (port.origin c.world) (.findCatalog query))
      c.spoolRoom (port.backlog begun + 1) {} begun).1 := by
  rcases read : drain port (.ofRequest (port.origin c.world) (.findCatalog query)) c.spoolRoom (port.backlog begun + 1) {}
    begun with ⟨ending, t⟩
  rw [concluded_eq, search_begun taken granted read]

/-- No loss of replies makes a search look complete that is not: whichever messages of the server's answer
are lost, the client is given all matches, or those before the first loss with what the server said of it,
or a fault of the channel. -/
theorem search_concludes (s : Store) (query : String) (origin : UInt32) (faults : Nat → Option ChannelFault)
    (lost : ChannelFault) :
    let sends := Server.burst s query origin faults
    let replies := (ServerCall.delivered sends).map .ok ++ [.error lost]
    Concludes (.findCatalog query) (s.matching query) sends lost
      (search ClientScript.port query { world := { origin, replies } }).1 := by
  intro sends replies
  cases misfit : (Request.findCatalog query).misfit? with
  | some fault =>
    have refused : ClientScript.port.send (.ofRequest origin (.findCatalog query)) { origin, replies } =
        (.error (.frame fault), { origin, replies }) := by
      have encoded := Message.encode_eq (.ofRequest origin (.findCatalog query))
      rw [Message.misfit?_ofRequest, misfit] at encoded
      simp only [ClientScript.port, ClientScript.send, encoded]
    rw [search_unsent refused]
    exact .unsent misfit
  | none =>
    obtain ⟨delivery, encode⟩ := Server.burst_delivery s query origin faults
    have sent : ClientScript.port.send (.ofRequest origin (.findCatalog query)) { origin, replies } =
        (.ok (), { origin, replies, sent := [.ofRequest origin (.findCatalog query)] }) := by
      have encoded := Message.encode_of_encodes (Message.encodes_ofRequest origin misfit)
      simp only [ClientScript.port, ClientScript.send, encoded]
      rfl
    have enough : (ServerCall.delivered sends).length ≤ replies.length := by simp [replies]
    rw [search_sent sent rfl]
    exact drain_concludes rfl [] [] (by simp) (by simp) rfl delivery encode enough
      { origin, sent := [.ofRequest origin (.findCatalog query)], begun := 1 }

end Client

end DiscCatalog
