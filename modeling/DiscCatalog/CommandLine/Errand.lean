import DiscCatalog.Client
import DiscCatalog.CommandLine.Report

namespace DiscCatalog

namespace Errand

variable {σ : Type} (port : ClientPort σ)

def complaint : Errand → String
  | createDatabase => "Failed to create database"
  | add _ => "Failed to add catalog entry"
  | get _ | getTrack _ _ => "Lookup failed"
  | delete key => s!"Failed to delete {key}"
  | addTrack _ => "Failed to add track"
  | deleteTrack key number => s!"Failed to delete track {number.toInt} on {key}"
  | search _ => "Search failed"

def report {α : Type} (e : Errand) (answer : Except ClientFault α) (shown : α → Except Failure String) :
    Except Failure String :=
  match answer with
  | .error f => .error (.ofClient e.complaint f)
  | .ok a => shown a

def found (query : String) (c : ClientState σ) : Except ClientFault (List CatalogEntry) × ClientState σ :=
  match Client.search port query c with
  | (.error f, c) => (.error f, c)
  | (.ok cursor, c) => (cursor.collect.1, c)

def perform (format : Format) (e : Errand) (c : ClientState σ) : Except Failure String × ClientState σ :=
  let changed (message : String) (r : Except ClientFault Unit × ClientState σ) :=
    (e.report r.1 fun () => .ok (format.done message), r.2)
  match e with
  | createDatabase => changed "database created" (Client.createDatabase port c)
  | add entry => changed "catalog entry added" (Client.addCatalog port entry c)
  | delete key => changed "catalog entry deleted" (Client.deleteCatalog port key c)
  | addTrack entry => changed "track added" (Client.addTrack port entry c)
  | deleteTrack key number => changed "track deleted" (Client.deleteTrack port key number c)
  | get key =>
    let (answer, c) := Client.getCatalog port key c
    (e.report answer fun
      | some entry => .ok (format.catalogs [entry])
      | none => .error ⟨s!"No catalog entry {key}", []⟩, c)
  | getTrack key number =>
    let (answer, c) := Client.getTrack port key number c
    (e.report answer fun
      | some entry => .ok (format.track entry)
      | none => .error ⟨s!"No track {number.toInt} on {key}", []⟩, c)
  | search query =>
    let (answer, c) := found port query c
    (e.report answer fun entries => .ok (format.catalogs entries), c)

end Errand

end DiscCatalog
