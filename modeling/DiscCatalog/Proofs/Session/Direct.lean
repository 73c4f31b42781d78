import DiscCatalog.Proofs.Session.Loop

namespace DiscCatalog

namespace Direct

inductive Outcome where
  | done (outcome : Except StoreFault Unit)
  | catalog (entry : Option CatalogEntry)
  | track (entry : Option TrackEntry)
  /-- A search found these entries, which are still to be taken. -/
  | searched (found : List CatalogEntry)
  | taken (entries : List CatalogEntry)
  | noCursor
  /-- A text of the call does not fit its slot, and the store is not asked. -/
  | misfit (fault : FrameFault)
  /-- The client has closed its channel, and the store is not asked. -/
  | closed
  | opened (origin : UInt32)
  | dropped (existed : Bool)
  | noClient

/-- What a client has found and not yet taken: by stepping, and in each of its searches. -/
structure Finds where
  stepping : List CatalogEntry := []
  searches : List (List CatalogEntry) := []
  closed : Bool := false

/-- A step of a session that is taken by way of the clients' calls alone. -/
inductive Step where
  | openClient (name : String) (origin : UInt32)
  | call (name : String) (c : ClientCall)
  | drop (name : String)

/-- The request that a call sends. -/
def request? : ClientCall → Option Request
  | .createDatabase => some .createDatabase
  | .getCatalog key => some (.getCatalog key)
  | .getTrack key number => some (.getTrack key number)
  | .addCatalog entry => some (.addCatalog entry)
  | .addTrack entry => some (.addTrack entry)
  | .deleteCatalog key => some (.deleteCatalog key)
  | .deleteTrack key number => some (.deleteTrack key number)
  | .find query true | .search query => some (.findCatalog query)
  | _ => none

def change (c : Change) (f : Finds) (s : Store) : Outcome × Finds × Store :=
  (.done (RecordStore.memory.change c s).1, f, (RecordStore.memory.change c s).2)

def onSearch (i : Nat) (take : List CatalogEntry → Outcome × List CatalogEntry) (f : Finds) (s : Store) :
    Outcome × Finds × Store :=
  match f.searches[i]? with
  | none => (.noCursor, f, s)
  | some entries => ((take entries).1, { f with searches := f.searches.set i (take entries).2 }, s)

def perform (c : ClientCall) (f : Finds) (s : Store) : Outcome × Finds × Store :=
  match c with
  | .createDatabase => change .reset f s
  | .getCatalog key => (.catalog (s.catalog? key), f, s)
  | .getTrack key number => (.track (s.track? key number), f, s)
  | .addCatalog entry => change (.putCatalog entry) f s
  | .addTrack entry => change (.putTrack entry) f s
  | .deleteCatalog key => change (.deleteCatalog key) f s
  | .deleteTrack key number => change (.deleteTrack key number) f s
  | .find query true =>
    (.catalog (s.matching query).head?, { f with stepping := (s.matching query).tail }, s)
  | .find _ false => (.catalog f.stepping.head?, { f with stepping := f.stepping.tail }, s)
  | .close => (.done (.ok ()), { f with stepping := [], closed := true }, s)
  | .search query =>
    (.searched (s.matching query), { f with searches := f.searches ++ [s.matching query] }, s)
  | .emptyCursor => (.searched [], { f with searches := f.searches ++ [[]] }, s)
  | .next i => onSearch i (fun entries => (.catalog entries.head?, entries.tail)) f s
  | .look i => onSearch i (fun entries => (.searched entries, entries)) f s
  | .collect i => onSearch i (fun entries => (.taken entries, [])) f s
  | .take i count => onSearch i (fun entries => (.taken (entries.take count), entries.drop count)) f s

def unsent (c : ClientCall) (f : Finds) : Finds :=
  match c with
  | .find _ true => { f with stepping := [] }
  | _ => f

/-- Makes a call on the store, if there is a request in it that cannot be sent only as far as the client
goes itself. -/
def call (c : ClientCall) (f : Finds) (s : Store) : Outcome × Finds × Store :=
  match request? c with
  | none => perform c f s
  | some request =>
    if f.closed then (.closed, unsent c f, s)
    else match request.misfit? with
    | some fault => (.misfit fault, unsent c f, s)
    | none => perform c f s

end Direct

/-- A store and what the clients that use it have found. -/
structure Direct where
  tables : Store
  clients : List (String × Direct.Finds) := []

namespace Direct

def step (d : Direct) : Step → Outcome × Direct
  | .openClient name origin => (.opened origin, { d with clients := assign name {} d.clients })
  | .call name c =>
    match d.clients.lookup name with
    | none => (.noClient, d)
    | some f =>
      let (outcome, f, tables) := call c f d.tables
      (outcome, { tables, clients := assign name f d.clients })
  | .drop name => (.dropped (d.clients.lookup name).isSome, { d with clients := unassign name d.clients })

def run : Direct → List Step → List Outcome × Direct
  | d, [] => ([], d)
  | d, step :: steps =>
    let (outcome, d) := d.step step
    let (outcomes, d) := run d steps
    (outcome :: outcomes, d)

def Step.proxied : Step → SessionStep
  | .openClient name origin => .openClient name origin
  | .call name c => .call name c
  | .drop name => .drop name

inductive Shows : StepAnswer → Outcome → Prop
  | done : Shows (.answered .done) (.done (.ok ()))
  | rejected (f : StoreFault) :
      Shows (.answered (.fault (.rejected ("command failed: " ++ f.message)))) (.done (.error f))
  | catalog (entry : Option CatalogEntry) : Shows (.answered (.catalog entry)) (.catalog entry)
  | track (entry : Option TrackEntry) : Shows (.answered (.track entry)) (.track entry)
  /-- The cursor of a search that was not cut short brings all that was found, in order. -/
  | searched {c : Cursor} {found : List CatalogEntry} :
      c.truncated = none → c.remaining = found.length → c.collect.1 = .ok found →
        Shows (.answered (.cursor c)) (.searched found)
  | taken (entries : List CatalogEntry) : Shows (.answered (.entries entries)) (.taken entries)
  | noCursor : Shows (.answered .noCursor) .noCursor
  | misfit (fault : FrameFault) : Shows (.answered (.fault (.channel (.frame fault)))) (.misfit fault)
  | closed : Shows (.answered (.fault (.channel .closed))) .closed
  | opened (origin : UInt32) : Shows (.opened (.ok origin)) (.opened origin)
  | dropped (existed : Bool) : Shows (.dropped existed) (.dropped existed)
  | noClient : Shows .noClient .noClient

variable {host : Host} {boxes : Mailboxes} {tables : Store} {handled : Nat} {origin : UInt32} {f : Finds}

structure Finds.Encodes (f : Finds) : Prop where
  stepping : ∀ e ∈ f.stepping, e.Encodes
  searches : ∀ found ∈ f.searches, ∀ e ∈ found, e.Encodes

def Finds.desk (host : Host) (boxes : Mailboxes) (tables : Store) (handled : Nat) (origin : UInt32)
    (f : Finds) : Desk (LoopClient × Hall LoopServer) where
  client := Client.resting host boxes tables handled ⟨origin, f.closed⟩ (Cursor.stepping f.stepping)
  cursors := f.searches.map (Cursor.onto · none)

def Agrees (host : Host) (boxes : Mailboxes) (origin : UInt32)
    (result : ClientAnswer × Desk (LoopClient × Hall LoopServer)) (direct : Outcome × Finds × Store) : Prop :=
  ∃ answer scan handled, result =
      (answer, direct.2.1.desk host boxes { direct.2.2 with scan } handled origin) ∧
    Shows (.answered answer) direct.1

theorem shows_onto {found : List CatalogEntry} (h : ∀ e ∈ found, e.Encodes) :
    Shows (.answered (.cursor (Cursor.onto found none))) (.searched found) :=
  .searched rfl rfl (by rw [Cursor.collect_onto h])

theorem shows_told (outcome : Except StoreFault Unit) :
    Shows (.answered (Desk.answerOf (fun _ => .done) (Client.told outcome))) (.done outcome) := by
  cases outcome with
  | ok => exact .done
  | error f => exact .rejected f

theorem agrees_change {c : Change} {request : Request} (rows : tables.Encodes) (opened : f.closed = false)
    (fits : request.misfit? = none) (asks : Server.changeOf request = some c) :
    Agrees host boxes origin
      ((f.desk host boxes tables handled origin).onClient (fun _ => .done) fun client =>
        ((Client.exchange (Hall.clientPort Hall.loop) request client).1.map fun _ => (),
          (Client.exchange (Hall.clientPort Hall.loop) request client).2))
      (change c f tables) := by
  obtain ⟨reply, scan, same, told⟩ :=
    Client.exchange_change host boxes handled origin (Cursor.stepping f.stepping) rows fits asks
  refine ⟨Desk.answerOf (fun _ => .done) (reply.map fun _ => ()), scan, handled + 1, ?_, ?_⟩
  · simp only [Desk.onClient, Finds.desk, opened, same, change]
  · rw [told]
    exact shows_told _

theorem agrees_onSearch (encode : f.Encodes) (i : Nat) {take : List CatalogEntry → Outcome × List CatalogEntry}
    {action : Cursor → ClientAnswer × Cursor}
    (taken : ∀ es : List CatalogEntry, (∀ e ∈ es, e.Encodes) →
      (action (Cursor.onto es none)).2 = Cursor.onto (take es).2 none ∧
        Shows (.answered (action (Cursor.onto es none)).1) (take es).1) :
    Agrees host boxes origin ((f.desk host boxes tables handled origin).onCursor i action)
      (onSearch i take f tables) := by
  unfold Desk.onCursor onSearch
  have there : (f.desk host boxes tables handled origin).cursors[i]? =
      f.searches[i]?.map (Cursor.onto · none) := List.getElem?_map
  cases found : f.searches[i]? with
  | none =>
    rw [there, found]
    exact ⟨.noCursor, tables.scan, handled, rfl, .noCursor⟩
  | some es =>
    obtain ⟨left, shown⟩ := taken es (encode.searches es (List.mem_of_getElem? found))
    rw [there, found]
    refine ⟨(action (Cursor.onto es none)).1, tables.scan, handled, ?_, shown⟩
    simp only [Option.map_some, Finds.desk, left, List.map_set]

theorem agrees_perform (keys : tables.KeysHold) (rows : tables.Encodes) (encode : f.Encodes) (c : ClientCall)
    (sendable : ∀ r, request? c = some r → f.closed = false ∧ r.misfit? = none) :
    Agrees host boxes origin
      ((f.desk host boxes tables handled origin).perform (Hall.clientPort Hall.loop) c)
      (perform c f tables) := by
  cases c with
  | createDatabase | addCatalog | addTrack | deleteCatalog | deleteTrack =>
    obtain ⟨opened, fits⟩ := sendable _ rfl
    exact agrees_change rows opened fits rfl
  | getCatalog key =>
    obtain ⟨opened, fits⟩ := sendable _ rfl
    obtain ⟨scan, same⟩ :=
      Client.getCatalog_resting host boxes handled origin (Cursor.stepping f.stepping) keys rows fits
    refine ⟨.catalog (tables.catalog? key), scan, handled + 1, ?_, .catalog _⟩
    simp only [Desk.perform, Desk.onClient, Finds.desk, opened, same, perform, Desk.answerOf]
  | getTrack key number =>
    obtain ⟨opened, fits⟩ := sendable _ rfl
    obtain ⟨scan, same⟩ :=
      Client.getTrack_resting host boxes handled origin (Cursor.stepping f.stepping) keys rows fits
    refine ⟨.track (tables.track? key number), scan, handled + 1, ?_, .track _⟩
    simp only [Desk.perform, Desk.onClient, Finds.desk, opened, same, perform, Desk.answerOf]
  | find query newSearch =>
    cases newSearch with
    | true =>
      obtain ⟨opened, fits⟩ := sendable _ rfl
      obtain ⟨scan, same⟩ :=
        Client.findCatalog_first host boxes handled origin (Cursor.stepping f.stepping) rows fits
      refine ⟨.catalog (tables.matching query).head?, scan, handled + 1, ?_, .catalog _⟩
      simp only [Desk.perform, Desk.onClient, Finds.desk, opened, same, perform, Desk.answerOf]
    | false =>
      have same := Client.findCatalog_again (Hall.clientPort Hall.loop) query encode.stepping
        (Client.resting host boxes tables handled ⟨origin, f.closed⟩ (Cursor.stepping f.stepping))
      refine ⟨.catalog f.stepping.head?, tables.scan, handled, ?_, .catalog _⟩
      exact congrArg (fun r : Except ClientFault (Option CatalogEntry) × _ =>
        (Desk.answerOf ClientAnswer.catalog r.1,
          (⟨r.2, f.searches.map (Cursor.onto · none)⟩ : Desk (LoopClient × Hall LoopServer)))) same
  | close => exact ⟨.done, tables.scan, handled, rfl, .done⟩
  | search query =>
    obtain ⟨opened, fits⟩ := sendable _ rfl
    obtain ⟨scan, same⟩ :=
      Client.search_matching host boxes handled origin (Cursor.stepping f.stepping) rows fits
    refine ⟨.cursor (Cursor.onto (tables.matching query) none), scan, handled + 1, ?_,
      shows_onto (rows.matching query)⟩
    simp only [Desk.perform, Finds.desk, opened, same, perform, List.map_append, List.map_cons, List.map_nil]
  | emptyCursor =>
    refine ⟨.cursor .empty, tables.scan, handled, ?_, ?_⟩
    · simp only [Desk.perform, Finds.desk, perform, List.map_append, List.map_cons, List.map_nil]
      rfl
    · have none : ∀ e ∈ ([] : List CatalogEntry), e.Encodes := by simp
      exact shows_onto none
  | next i =>
    rw [Desk.perform, perform]
    refine agrees_onSearch encode i fun es fits => ?_
    cases es with
    | nil => exact ⟨rfl, .catalog none⟩
    | cons e rest =>
      rw [Cursor.next_onto_cons (fits e List.mem_cons_self)]
      exact ⟨rfl, .catalog (some e)⟩
  | look i =>
    rw [Desk.perform, perform]
    exact agrees_onSearch encode i fun es fits => ⟨rfl, shows_onto fits⟩
  | collect i =>
    rw [Desk.perform, perform]
    refine agrees_onSearch encode i fun es fits => ?_
    rw [Cursor.collect_onto fits]
    exact ⟨rfl, .taken es⟩
  | take i count =>
    rw [Desk.perform, perform]
    refine agrees_onSearch encode i fun es fits => ?_
    rw [Cursor.take_onto fits]
    exact ⟨rfl, .taken (es.take count)⟩

theorem perform_unsent {c : ClientCall} {request : Request} {fault : ChannelFault}
    (asks : request? c = some request)
    (h : (Hall.clientPort Hall.loop).send
        (Message.ofRequest ((Hall.clientPort Hall.loop).origin
          (f.desk host boxes tables handled origin).client.world) request)
        (f.desk host boxes tables handled origin).client.world =
      (.error fault, (f.desk host boxes tables handled origin).client.world)) :
    (f.desk host boxes tables handled origin).perform (Hall.clientPort Hall.loop) c =
      (.fault (.channel fault), (unsent c f).desk host boxes tables handled origin) := by
  cases c with
  | createDatabase | getCatalog | getTrack | addCatalog | addTrack | deleteCatalog | deleteTrack =>
    cases asks
    simp only [Desk.perform, Desk.onClient, Client.createDatabase, Client.getCatalog, Client.getTrack,
      Client.addCatalog, Client.addTrack, Client.deleteCatalog, Client.deleteTrack, Client.exchange_unsent h]
    rfl
  | find query newSearch =>
    cases newSearch with
    | true =>
      cases asks
      rw [Desk.perform, Desk.onClient, Client.findCatalog_unsent h]
      rfl
    | false => cases asks
  | search query =>
    cases asks
    rw [Desk.perform, Client.search_unsent h]
    rfl
  | close | emptyCursor | next | look | collect | take => cases asks

/-- Whatever is called, the client is given what the call comes to on the store itself. -/
theorem agrees_call (keys : tables.KeysHold) (rows : tables.Encodes) (encode : f.Encodes) (c : ClientCall) :
    Agrees host boxes origin
      ((f.desk host boxes tables handled origin).perform (Hall.clientPort Hall.loop) c)
      (call c f tables) := by
  unfold call
  cases asks : request? c with
  | none => exact agrees_perform keys rows encode c fun r hr => by rw [asks] at hr; cases hr
  | some request =>
    by_cases closed : f.closed = true
    · have refused : (Hall.clientPort Hall.loop).send (Message.ofRequest origin request)
          (f.desk host boxes tables handled origin).client.world =
          (.error .closed, (f.desk host boxes tables handled origin).client.world) := by
        simp only [Finds.desk, closed]
        rfl
      simp only [closed, ↓reduceIte]
      exact ⟨_, tables.scan, handled, perform_unsent asks refused, .closed⟩
    · simp only [closed, Bool.false_eq_true, ↓reduceIte]
      have opened : f.closed = false := by simpa using closed
      cases misfit : request.misfit? with
      | some fault =>
        have refused : (Hall.clientPort Hall.loop).send (Message.ofRequest origin request)
            (f.desk host boxes tables handled origin).client.world =
            (.error (.frame fault), (f.desk host boxes tables handled origin).client.world) := by
          simp only [Finds.desk, opened]
          exact LoopClient.send_misfit host boxes tables handled origin
            (by rw [Message.misfit?_ofRequest, misfit])
        exact ⟨_, tables.scan, handled, perform_unsent asks refused, .misfit fault⟩
      | none =>
        refine agrees_perform keys rows encode c fun r hr => ?_
        rw [asks] at hr
        cases hr
        exact ⟨opened, misfit⟩

end Direct

end DiscCatalog
