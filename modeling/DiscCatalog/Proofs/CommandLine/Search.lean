import DiscCatalog.CommandLine.Terminal
import DiscCatalog.Proofs.Server.Attended
import DiscCatalog.Proofs.Session.Search

namespace DiscCatalog

namespace ServerCall

/-- The answer to a search closes with the word that there are no more entries, and all of them went through
then, or with the report of the first fault, and some of them did not. -/
theorem Delivery.closing {m last : Message} {found : List CatalogEntry} {sends : List ServerCall}
    (delivery : Delivery m (found.map m.found ++ [m.noMore]) sends) (closes : closing? sends = some last) :
    (last = m.noMore ∧ found.length ≤ leading sends) ∨
      ∃ cause, last = m.cutShort cause ∧ leading sends < found.length := by
  obtain ⟨whole, all, -⟩ | ⟨-, cause, told, few, -⟩ | ⟨-, -, lost, -⟩ := delivery.ends
  · exact .inl ⟨Option.some.inj (closes.symm.trans whole), all⟩
  · exact .inr ⟨cause, Option.some.inj (closes.symm.trans told), few⟩
  · cases closes.symm.trans lost

end ServerCall

namespace Server

/-- The messages of a server in answer to a search, with what became of them. -/
def searchCalls (s : Repository × Host) (query : String) (origin : UInt32) (faults : Nat → Option ChannelFault) :
    List ServerCall :=
  (answer (Repository.recordStore.beside _) ((failing faults).noting.beside _)
    (.ofRequest origin (.findCatalog query)) (s, 0, [])).2.2

theorem searchCalls_delivery (s : Repository × Host) (query : String) (origin : UInt32)
    (faults : Nat → Option ChannelFault) :
    ServerCall.Delivery (.ofRequest origin (.findCatalog query))
        ((s.1.tables.matching query).map (Message.ofRequest origin (.findCatalog query)).found
          ++ [(Message.ofRequest origin (.findCatalog query)).noMore])
        (searchCalls s query origin faults) ∧
      ∀ r, .sent r (.ok ()) ∈ searchCalls s query origin faults → r.Encodes := by
  obtain ⟨scan, answered⟩ := answer_rescans (failing faults).noting (.ofRequest origin (.findCatalog query)) s (0, [])
  rw [searchCalls, answered]
  exact deliver_failing faults _ (answersTo_ne_nil (.ofRequest origin (.findCatalog query)) s)

end Server

namespace Client

def collected (read : Ending × Spool) : Except ClientFault (List CatalogEntry) :=
  concluded read >>= fun cursor => cursor.collect.1

theorem collected_holding {entries : List CatalogEntry} (h : ∀ e ∈ entries, e.Encodes) (truncated : Option String) :
    collected (.ok truncated, Spool.holding entries) = .ok entries := by
  obtain ⟨finished, collected⟩ := collect_holding h truncated
  rw [Client.collected, finished]
  exact collected

theorem collected_getting {m asked : Message} (operation : asked.operation = m.operation) {found : List CatalogEntry}
    {sends : List ServerCall} (lost : ChannelFault)
    (delivery : ServerCall.Delivery m (found.map m.found ++ [m.noMore]) sends)
    (encode : ∀ r, .sent r (.ok ()) ∈ sends → r.Encodes) {room : Nat}
    (enough : (ServerCall.delivered sends).length ≤ room) (c : ClientScript) :
    collected (drain ClientScript.port asked none (room + 1) {} (c.getting sends lost)).1 =
      if (ServerCall.closing? sends).isSome then .ok (found.take (ServerCall.leading sends))
      else .error (.channel lost) := by
  obtain ⟨broken, closed⟩ := drain_getting operation [] lost (by simp) delivery encode enough c
  change collected (drain ClientScript.port asked none (room + 1) (Spool.holding []) (c.getting sends lost)).1 = _
  generalize (drain ClientScript.port asked none (room + 1) (Spool.holding []) (c.getting sends lost)).1 = read at *
  cases closes : ServerCall.closing? sends with
  | none =>
    obtain ⟨ending, spool⟩ := read
    cases broken closes
    rfl
  | some last =>
    obtain ⟨rfl, fits⟩ := closed last closes
    exact collected_holding fits _

end Client

namespace Errand

section Found

variable {query : String} {origin : UInt32}

theorem found_eq {σ : Type} (port : ClientPort σ) (query : String) (c : ClientState σ) :
    (found port query c).1 = (Client.search port query c).1 >>= fun cursor => cursor.collect.1 := by
  unfold found
  rcases Client.search port query c with ⟨_ | _, _⟩ <;> rfl

/-- What the command finds when its request fits a frame and the channel is lost to it after what went through
of the answer. -/
theorem found_getting {entries : List CatalogEntry} {sends : List ServerCall} (lost : ChannelFault)
    (fits : (Request.findCatalog query).misfit? = none)
    (delivery : ServerCall.Delivery (.ofRequest origin (.findCatalog query))
      (entries.map (Message.ofRequest origin (.findCatalog query)).found
        ++ [(Message.ofRequest origin (.findCatalog query)).noMore]) sends)
    (encode : ∀ r, .sent r (.ok ()) ∈ sends → r.Encodes) :
    (found ClientScript.port query { world := ClientScript.getting sends lost { origin } }).1 =
      if (ServerCall.closing? sends).isSome then .ok (entries.take (ServerCall.leading sends))
      else .error (.channel lost) := by
  have sent : ClientScript.port.send (.ofRequest origin (.findCatalog query))
      (ClientScript.getting sends lost { origin }) =
        (.ok (), ClientScript.getting sends lost { origin, sent := [.ofRequest origin (.findCatalog query)] }) := by
    have encoded := Message.encode_of_encodes (Message.encodes_ofRequest origin fits)
    simp only [ClientScript.port, ClientScript.send, encoded]
    rfl
  have enough : (ServerCall.delivered sends).length ≤ ((ServerCall.delivered sends).map Except.ok
      ++ [(.error lost : Except ChannelFault Message)]).length := by simp
  rw [found_eq, Client.search_sent sent rfl]
  exact Client.collected_getting rfl lost delivery encode enough
    { origin, sent := [.ofRequest origin (.findCatalog query)], begun := 1 }

theorem found_misfit {fault : FrameFault} (misfit : (Request.findCatalog query).misfit? = some fault)
    (c : ClientScript) : (found ClientScript.port query { world := c }).1 = .error (.channel (.frame fault)) := by
  have refused : ClientScript.port.send (.ofRequest (ClientScript.port.origin c) (.findCatalog query)) c =
      (.error (.frame fault), c) := by
    have encoded := Message.encode_eq (.ofRequest c.origin (.findCatalog query))
    rw [Message.misfit?_ofRequest, misfit] at encoded
    simp only [ClientScript.port, ClientScript.send, encoded]
  rw [found_eq, Client.search_unsent refused]
  rfl

end Found

/-- The search command succeeds exactly if its request fits a frame and the last message of the server goes
through, be it the report that the search was cut short. Its output is then the matches before the first fault. -/
theorem search_outcome (s : Repository × Host) (query : String) (origin : UInt32) (faults : Nat → Option ChannelFault)
    (lost : ChannelFault) (format : Format) :
    let asked := Message.ofRequest origin (.findCatalog query)
    let matching := s.1.tables.matching query
    let sends := Server.searchCalls s query origin faults
    let outcome := Outcome.ofResult ((search query).perform ClientScript.port format
      { world := ClientScript.getting sends lost { origin } }).1
    (outcome = match (Request.findCatalog query).misfit?, ServerCall.closing? sends with
      | some fault, _ => .ofResult (.error (.ofClient "Search failed" (.channel (.frame fault))))
      | none, none => .ofResult (.error (.ofClient "Search failed" (.channel lost)))
      | none, some _ => { output := format.catalogs (matching.take (ServerCall.leading sends)) }) ∧
    ∀ last, ServerCall.closing? sends = some last →
      (last = asked.noMore ∧ matching.length ≤ ServerCall.leading sends) ∨
        ∃ cause, last = asked.cutShort cause ∧ ServerCall.leading sends < matching.length := by
  intro asked matching sends outcome
  obtain ⟨delivery, encode⟩ := Server.searchCalls_delivery s query origin faults
  refine ⟨?_, fun last closes => delivery.closing closes⟩
  have performed : outcome = .ofResult (report (search query)
      (found ClientScript.port query { world := ClientScript.getting sends lost { origin } }).1
      fun entries => .ok (format.catalogs entries)) := rfl
  rw [performed]
  cases misfit : (Request.findCatalog query).misfit? with
  | some fault =>
    rw [found_misfit misfit]
    rfl
  | none =>
    rw [found_getting lost misfit delivery encode]
    cases ServerCall.closing? sends <;> rfl

/-- The second of three rows has a title that fits no frame. The server says that the search failed, and the
command shows the first row and succeeds. Of the rest there is a line in the log only, and log lines are left out here. -/
theorem search_cut_short_succeeds :
    let tables : Store := { catalogs := ⟨[⟨"CD1", "Blue", "Folk", "Joni"⟩,
      ⟨"CD2", String.ofList (List.replicate 71 'T'), "Folk", "Joni"⟩, ⟨"CD3", "Hejira", "Folk", "Joni"⟩], by decide⟩ }
    let sends := Server.searchCalls (.memory tables, Host.fresh []) "" 7 fun _ => none
    let outcome := Outcome.ofResult ((search "").perform ClientScript.port .text
      { world := ClientScript.getting sends .peerClosed { origin := 7 } }).1
    outcome = { exit := 0, output := "CD1\tBlue\tFolk\tJoni\n", complaint := "" } ∧
      (ServerCall.closing? sends).map (fun last => (last.status, last.diagnostic)) =
        some (.failed, "command failed: Protocol error: Field title is 71 bytes, max 70") ∧
      (tables.matching "").map (·.catalog) = ["CD1", "CD2", "CD3"] := by
  decide +kernel

end Errand

end DiscCatalog
