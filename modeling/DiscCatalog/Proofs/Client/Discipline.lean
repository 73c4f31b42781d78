import DiscCatalog.Proofs.Client.Interrupted

namespace DiscCatalog

/-- A call of a client on its channel, and its outcome. -/
inductive LineCall where
  | sent (m : Message) (outcome : Except ChannelFault Unit)
  | begun (outcome : Except ChannelFault Unit)
  | received (outcome : Except ChannelFault Message)
  | ended
  | closed

namespace ClientPort

variable {τ : Type}

/-- The same end of a channel, with notes of what is called on it. -/
def noting (port : ClientPort τ) : ClientPort (τ × List LineCall) where
  origin w := port.origin w.1
  send m w := ((port.send m w.1).1, (port.send m w.1).2, w.2 ++ [.sent m (port.send m w.1).1])
  replyBegin w := ((port.replyBegin w.1).1, (port.replyBegin w.1).2, w.2 ++ [.begun (port.replyBegin w.1).1])
  replyReceive w := ((port.replyReceive w.1).1, (port.replyReceive w.1).2, w.2 ++ [.received (port.replyReceive w.1).1])
  replyEnd w := (port.replyEnd w.1, w.2 ++ [.ended])
  close w := (port.close w.1, w.2 ++ [.closed])
  backlog w := port.backlog w.1

variable {port : ClientPort τ} {w w' : τ} {m : Message} {outcome : Except ChannelFault Unit}

theorem send_noting (sent : port.send m w = (outcome, w')) (notes : List LineCall) :
    port.noting.send m (w, notes) = (outcome, w', notes ++ [.sent m outcome]) := by
  simp only [noting, sent]

theorem replyBegin_noting (begun : port.replyBegin w = (outcome, w')) (notes : List LineCall) :
    port.noting.replyBegin (w, notes) = (outcome, w', notes ++ [.begun outcome]) := by
  simp only [noting, begun]

theorem replyReceive_noting {reply : Except ChannelFault Message} (received : port.replyReceive w = (reply, w'))
    (notes : List LineCall) : port.noting.replyReceive (w, notes) = (reply, w', notes ++ [.received reply]) := by
  simp only [noting, received]

end ClientPort

namespace LineCall

inductive Dialogue (asked : Message) : (got : List (Except ChannelFault Message)) → List LineCall → Prop
  | unsent (fault : ChannelFault) : Dialogue asked [] [.sent asked (.error fault)]
  | unbegun (fault : ChannelFault) : Dialogue asked [] [.sent asked (.ok ()), .begun (.error fault), .ended]
  | held (got : List (Except ChannelFault Message)) :
      Dialogue asked got (.sent asked (.ok ()) :: .begun (.ok ()) :: (got.map .received ++ [.ended]))

/-- What a call on a client calls on its channel of this origin, when it gives `answer`. -/
inductive Block (origin : UInt32) : ClientCall → ClientAnswer → List LineCall → Prop
  /-- What is no search reads one reply at most, and succeeds only by one to its own operation that says so. -/
  | point {c : ClientCall} {request : Request} {answer : ClientAnswer} {got : List (Except ChannelFault Message)}
      {calls : List LineCall} :
      Direct.request? c = some request → (∀ query, request ≠ .findCatalog query) →
      Dialogue (.ofRequest origin request) got calls → got.length ≤ 1 →
      ((∀ fault, answer ≠ .fault fault) → ∃ r, got = [.ok r] ∧ r.operation = request.operation ∧ r.status = .ok) →
      Block origin c answer calls
  | search {c : ClientCall} {query : String} {answer : ClientAnswer} {got : List (Except ChannelFault Message)}
      {calls : List LineCall} :
      Direct.request? c = some (.findCatalog query) → Dialogue (.ofRequest origin (.findCatalog query)) got calls →
      Block origin c answer calls
  | close : Block origin .close .done [.closed]
  | silent {c : ClientCall} {answer : ClientAnswer} :
      Direct.request? c = none → c ≠ .close → Block origin c answer []

end LineCall

open LineCall (Dialogue Block)

theorem Message.operation_ofRequest (origin : UInt32) (request : Request) :
    (ofRequest origin request).operation = request.operation := by
  cases request <;> rfl

namespace Client

theorem single_eq_ok {asked reply given : Message} (h : single asked reply = .ok given) :
    reply.operation = asked.operation ∧ reply.status = .ok := by
  rw [single] at h
  split at h
  · cases h
  · next same =>
    cases status : reply.status with
    | ok => exact ⟨not_not.1 same, rfl⟩
    | failed | noMoreResults =>
      rw [status] at h
      cases h

variable {τ : Type} (port : ClientPort τ) (room : Option SystemFault) (held : Option Cursor)

/-- An exchange is one dialogue, in which one reply is read at most. -/
theorem exchange_noting (request : Request) (w : τ) (notes : List LineCall) :
    ∃ outcome w' got calls, Dialogue (.ofRequest (port.origin w) request) got calls ∧ got.length ≤ 1 ∧
      (∀ given, outcome = .ok given → ∃ r, got = [.ok r] ∧ r.operation = request.operation ∧ r.status = .ok) ∧
      exchange port request { world := w, spoolRoom := room, held } = (outcome, { world := w', spoolRoom := room, held }) ∧
      exchange port.noting request { world := (w, notes), spoolRoom := room, held } =
        (outcome, { world := (w', notes ++ calls), spoolRoom := room, held }) := by
  let c : ClientState τ := { world := w, spoolRoom := room, held }
  let noted : ClientState (τ × List LineCall) := { world := (w, notes), spoolRoom := room, held }
  rcases sent : port.send (.ofRequest (port.origin w) request) w with ⟨fault | ⟨⟩, asked⟩
  · exact ⟨.error (.channel fault), asked, [], _, .unsent fault, Nat.zero_le _, by simp,
      exchange_refused (c := c) sent, exchange_refused (c := noted) (ClientPort.send_noting sent notes)⟩
  have taken := ClientPort.send_noting sent notes
  rcases begun : port.replyBegin asked with ⟨fault | ⟨⟩, opened⟩
  · have refused := ClientPort.replyBegin_noting begun (notes ++ [.sent (.ofRequest (port.origin w) request) (.ok ())])
    refine ⟨.error (.channel fault), port.replyEnd opened, [], _, .unbegun fault, Nat.zero_le _, by simp,
      exchange_failed (c := c) sent (.inl begun), ?_⟩
    rw [exchange_failed (c := noted) taken (.inl refused)]
    simp only [ClientPort.noting, List.append_assoc]
    rfl
  have opens := ClientPort.replyBegin_noting begun (notes ++ [.sent (.ofRequest (port.origin w) request) (.ok ())])
  rcases received : port.replyReceive opened with ⟨outcome, last⟩
  have receives := ClientPort.replyReceive_noting received
    (notes ++ [.sent (.ofRequest (port.origin w) request) (.ok ())] ++ [.begun (.ok ())])
  cases outcome with
  | error fault =>
    refine ⟨.error (.channel fault), port.replyEnd last, _, _, .held [.error fault], Nat.le_refl _, by simp,
      exchange_failed (c := c) sent (.inr ⟨opened, begun, received⟩), ?_⟩
    rw [exchange_failed (c := noted) taken (.inr ⟨_, opens, receives⟩)]
    simp only [ClientPort.noting, List.append_assoc]
    rfl
  | ok reply =>
    refine ⟨single (.ofRequest (port.origin w) request) reply, port.replyEnd last, _, _, .held [.ok reply], Nat.le_refl _,
      fun given accepted => ⟨reply, rfl, ?_⟩, exchange_received (c := c) sent begun received, ?_⟩
    · rw [← Message.operation_ofRequest (port.origin w) request]
      exact single_eq_ok accepted
    · rw [exchange_received (c := noted) taken opens receives]
      simp only [ClientPort.noting, List.append_assoc]
      rfl

theorem drain_noting (asked : Message) (left : Nat) (spool : Spool) (w : τ) (notes : List LineCall) :
    ∃ read w', ∃ got : List (Except ChannelFault Message), drain port asked room left spool w = (read, w') ∧
      drain port.noting asked room left spool (w, notes) = (read, w', notes ++ got.map .received) := by
  induction left generalizing spool w notes with
  | zero => exact ⟨_, w, [], rfl, by rw [List.map_nil, List.append_nil]; rfl⟩
  | succ left ih =>
    rcases received : port.replyReceive w with ⟨fault | reply, last⟩
    · have receives := ClientPort.replyReceive_noting received notes
      exact ⟨_, last, [.error fault], drain_failed received _, drain_failed receives _⟩
    · have receives := ClientPort.replyReceive_noting received notes
      by_cases stops : Stops asked reply
      · exact ⟨_, last, [.ok reply], (drain_received received left).trans (if_pos stops),
          (drain_received receives left).trans (if_pos stops)⟩
      · obtain ⟨read, w', got, drained, noted⟩ := ih (spool.push room reply.catalog) last (notes ++ [.received (.ok reply)])
        refine ⟨read, w', .ok reply :: got, ?_, ?_⟩
        · rw [drain_received received, if_neg stops, drained]
        · rw [drain_received receives, if_neg stops, noted, List.append_assoc]
          rfl

theorem search_noting (query : String) (w : τ) (notes : List LineCall) :
    ∃ found w' got calls, Dialogue (.ofRequest (port.origin w) (.findCatalog query)) got calls ∧
      search port query { world := w, spoolRoom := room, held } = (found, { world := w', spoolRoom := room, held }) ∧
      search port.noting query { world := (w, notes), spoolRoom := room, held } =
        (found, { world := (w', notes ++ calls), spoolRoom := room, held }) := by
  let c : ClientState τ := { world := w, spoolRoom := room, held }
  let noted : ClientState (τ × List LineCall) := { world := (w, notes), spoolRoom := room, held }
  let asking : Message := .ofRequest (port.origin w) (.findCatalog query)
  rcases sent : port.send asking w with ⟨fault | ⟨⟩, asked⟩
  · exact ⟨.error (.channel fault), asked, [], _, .unsent fault, search_refused (c := c) sent,
      search_refused (c := noted) (ClientPort.send_noting sent notes)⟩
  have taken := ClientPort.send_noting sent notes
  rcases begun : port.replyBegin asked with ⟨fault | ⟨⟩, opened⟩
  · have refused := ClientPort.replyBegin_noting begun (notes ++ [.sent asking (.ok ())])
    refine ⟨.error (.channel fault), port.replyEnd opened, [], _, .unbegun fault, search_unbegun (c := c) sent begun, ?_⟩
    rw [search_unbegun (c := noted) taken refused]
    simp only [ClientPort.noting, List.append_assoc]
    rfl
  have opens := ClientPort.replyBegin_noting begun (notes ++ [.sent asking (.ok ())])
  obtain ⟨read, last, got, drained, drains⟩ := drain_noting port room asking (port.backlog opened + 1) {} opened
    (notes ++ [.sent asking (.ok ())] ++ [.begun (.ok ())])
  refine ⟨cursorOf read, port.replyEnd last, got, _, .held got, search_begun (c := c) sent begun drained, ?_⟩
  rw [search_begun (c := noted) taken opens drains]
  simp only [ClientPort.noting, List.append_assoc]
  rfl

end Client

namespace Desk

variable {τ : Type} (port : ClientPort τ)

/-- A call is one block of calls on the channel, which is used as if they were not noted. -/
theorem perform_noting (c : ClientCall) (room : Option SystemFault) (held : Option Cursor) (cursors : List Cursor) (w : τ)
    (notes : List LineCall) :
    ∃ answer block held' cursors' w', Block (port.origin w) c answer block ∧
      (upon room held cursors w).perform port c = (answer, upon room held' cursors' w') ∧
      (upon room held cursors (w, notes)).perform port.noting c = (answer, upon room held' cursors' (w', notes ++ block)) := by
  cases asks : Direct.request? c with
  | none =>
    by_cases stays : c = .close
    · subst stays
      exact ⟨.done, _, none, cursors, port.close w, .close, rfl, rfl⟩
    · obtain ⟨answer, held', cursors', made⟩ := perform_unasked asks stays room held cursors
      refine ⟨answer, [], held', cursors', w, .silent asks stays, made port w, ?_⟩
      rw [List.append_nil]
      exact made port.noting (w, notes)
  | some request =>
    obtain ⟨query, rfl, rfl | rfl⟩ | ⟨single, value, exchanged⟩ := perform_cases asks
    · obtain ⟨found, w', got, calls, dialogue, searched, noted⟩ :=
        Client.search_noting port room none query w notes
      exact ⟨_, calls, _, cursors, w', .search rfl dialogue, find_upon searched, find_upon noted⟩
    · obtain ⟨found, w', got, calls, dialogue, searched, noted⟩ :=
        Client.search_noting port room held query w notes
      exact ⟨_, calls, held, _, w', .search rfl dialogue, search_upon searched, search_upon noted⟩
    · obtain ⟨outcome, w', got, calls, dialogue, once, accepted, made, noted⟩ :=
        Client.exchange_noting port room held request w notes
      rw [exchanged, exchanged]
      refine ⟨_, calls, held, cursors, w', .point asks single dialogue once ?_, onClient_upon value made,
        onClient_upon value noted⟩
      intro succeeds
      cases outcome with
      | error f => exact absurd rfl (succeeds f)
      | ok given => exact accepted given rfl

/-- The same desk on the channel with notes. -/
def noted (d : Desk τ) (notes : List LineCall) : Desk (τ × List LineCall) :=
  upon d.client.spoolRoom d.client.held d.cursors (d.client.world, notes)

/-- Whatever the channel does and whatever is called on a client, each call is one block of calls on the channel, of its
own shape: what asks the server for something is one dialogue, and the calls that do not ask use no channel. -/
theorem calls_in_dialogues (calls : List ClientCall) (d : Desk τ) (notes : List LineCall) :
    ∃ blocks : List (List LineCall),
      (d.noted notes).performAll port.noting calls =
        ((d.performAll port calls).1, (d.performAll port calls).2.noted (notes ++ blocks.flatten)) ∧
      blocks.length = calls.length ∧
      ∀ k c, calls[k]? = some c → ∃ answer block,
        (d.performAll port calls).1[k]? = some answer ∧ blocks[k]? = some block ∧
          Block (port.origin (d.performAll port (calls.take k)).2.client.world) c answer block := by
  induction calls generalizing d notes with
  | nil => exact ⟨[], by simp [performAll], rfl, by simp⟩
  | cons c calls ih =>
    obtain ⟨answer, block, held', cursors', w', shape, made, noted⟩ :=
      perform_noting port c d.client.spoolRoom d.client.held d.cursors d.client.world notes
    have here : d.perform port c = (answer, upon d.client.spoolRoom held' cursors' w') := made
    have there : (d.noted notes).perform port.noting c =
        (answer, (upon d.client.spoolRoom held' cursors' w').noted (notes ++ block)) := noted
    obtain ⟨blocks, run, count, shapes⟩ := ih (upon d.client.spoolRoom held' cursors' w') (notes ++ block)
    refine ⟨block :: blocks, ?_, congrArg Nat.succ count, fun k call at_k => ?_⟩
    · rw [performAll, performAll, there, here, run, List.flatten_cons, List.append_assoc]
    · cases k with
      | zero =>
        cases at_k
        refine ⟨answer, block, ?_, rfl, shape⟩
        rw [performAll, here]
        rfl
      | succ k =>
        obtain ⟨answer, block, given, kept, shape⟩ := shapes k call at_k
        refine ⟨answer, block, ?_, kept, ?_⟩
        · rw [performAll, here]
          exact given
        · rw [List.take_succ_cons, performAll, here]
          exact shape

end Desk

end DiscCatalog
