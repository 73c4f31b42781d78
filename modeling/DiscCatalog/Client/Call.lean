import DiscCatalog.Client

namespace DiscCatalog

/-- A call on a client, or on one of its cursors, which are counted from zero as searches give them. -/
inductive ClientCall where
  | createDatabase
  | getCatalog (key : String)
  | getTrack (key : String) (number : Int32)
  | addCatalog (entry : CatalogEntry)
  | addTrack (entry : TrackEntry)
  | deleteCatalog (key : String)
  | deleteTrack (key : String) (number : Int32)
  | find (query : String) (newSearch : Bool)
  | close
  | search (query : String)
  | emptyCursor
  | next (cursor : Nat)
  | look (cursor : Nat)
  | collect (cursor : Nat)
  | take (cursor count : Nat)
deriving DecidableEq

inductive ClientAnswer where
  | done
  | catalog (entry : Option CatalogEntry)
  | track (entry : Option TrackEntry)
  | cursor (c : Cursor)
  | entries (found : List CatalogEntry)
  | noCursor
  | fault (f : ClientFault)
deriving DecidableEq

/-- A record client as its caller has it: the client itself, and the cursors that its searches gave. -/
structure Desk (σ : Type) where
  client : ClientState σ
  cursors : List Cursor := []

namespace Desk

variable {σ : Type}

def answerOf {α : Type} (value : α → ClientAnswer) : Except ClientFault α → ClientAnswer
  | .ok a => value a
  | .error f => .fault f

def onCursor (i : Nat) (f : Cursor → ClientAnswer × Cursor) (d : Desk σ) : ClientAnswer × Desk σ :=
  match d.cursors[i]? with
  | none => (.noCursor, d)
  | some c =>
    let (answer, c) := f c
    (answer, { d with cursors := d.cursors.set i c })

def onClient {α : Type} (value : α → ClientAnswer)
    (f : ClientState σ → Except ClientFault α × ClientState σ) (d : Desk σ) : ClientAnswer × Desk σ :=
  let (outcome, client) := f d.client
  (answerOf value outcome, { d with client })

def perform (port : ClientPort σ) (call : ClientCall) (d : Desk σ) : ClientAnswer × Desk σ :=
  match call with
  | .createDatabase => d.onClient (fun _ => .done) (Client.createDatabase port)
  | .getCatalog key => d.onClient .catalog (Client.getCatalog port key)
  | .getTrack key number => d.onClient .track (Client.getTrack port key number)
  | .addCatalog entry => d.onClient (fun _ => .done) (Client.addCatalog port entry)
  | .addTrack entry => d.onClient (fun _ => .done) (Client.addTrack port entry)
  | .deleteCatalog key => d.onClient (fun _ => .done) (Client.deleteCatalog port key)
  | .deleteTrack key number => d.onClient (fun _ => .done) (Client.deleteTrack port key number)
  | .find query newSearch => d.onClient .catalog (Client.findCatalog port query newSearch)
  | .close => (.done, { d with client := Client.close port d.client })
  | .search query =>
    match Client.search port query d.client with
    | (.ok c, client) => (.cursor c, { client, cursors := d.cursors ++ [c] })
    | (.error f, client) => (.fault f, { d with client })
  | .emptyCursor => (.cursor .empty, { d with cursors := d.cursors ++ [.empty] })
  | .next i => d.onCursor i fun c =>
    let (entry, c) := c.next
    (answerOf .catalog entry, c)
  | .look i => d.onCursor i fun c => (.cursor c, c)
  | .collect i => d.onCursor i fun c =>
    let (found, c) := c.collect
    (answerOf .entries found, c)
  | .take i count => d.onCursor i fun c =>
    let (found, c) := c.take count
    (answerOf .entries found, c)

end Desk

end DiscCatalog
