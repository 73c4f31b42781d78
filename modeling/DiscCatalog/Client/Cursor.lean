import DiscCatalog.Frame.Row
import DiscCatalog.Fault

namespace DiscCatalog

structure Cursor where
  spool : Option (List UInt8) := none
  remaining : Nat := 0
  truncated : Option String := none
deriving DecidableEq, Inhabited

namespace Cursor

def empty : Cursor := {}

def isExhausted (c : Cursor) : Bool := c.remaining = 0

def next (c : Cursor) : Except ClientFault (Option CatalogEntry) × Cursor :=
  match c.remaining, c.spool with
  | 0, _ => (.ok none, { c with spool := none })
  | _, none => (.ok none, { c with remaining := 0 })
  | remaining + 1, some bytes =>
    if bytes.length < CatalogEntry.frameSize then
      (.error (.spool (.custom "failed to fill whole buffer")), { c with spool := none, remaining := 0 })
    else
      let rest := if remaining = 0 then none else some (bytes.drop CatalogEntry.frameSize)
      match CatalogEntry.ofBytes (bytes.take CatalogEntry.frameSize) with
      | .ok entry => (.ok (some entry), { c with spool := rest, remaining })
      | .error f => (.error (.frame f), { c with spool := rest, remaining })

def take : (room : Nat) → Cursor → Except ClientFault (List CatalogEntry) × Cursor
  | 0, c => (.ok [], c)
  | room + 1, c =>
    match c.next with
    | (.error f, c) => (.error f, c)
    | (.ok none, c) => (.ok [], c)
    | (.ok (some entry), c) =>
      let (rest, c) := take room c
      (rest.map (entry :: ·), c)

def collect (c : Cursor) : Except ClientFault (List CatalogEntry) × Cursor := c.take (c.remaining + 1)

end Cursor

structure Spool where
  written : Option (List UInt8) := none
  count : Nat := 0
  fault : Option ClientFault := none
deriving DecidableEq

namespace Spool

/-- Keeps one more entry. `room` is the fault of making a place for them, if there is one: it shows only
once there is an entry to keep. After a fault nothing more is kept. -/
def push (room : Option SystemFault) (entry : CatalogEntry) (s : Spool) : Spool :=
  if s.fault.isSome then s
  else match entry.toBytes with
  | .error f => { s with written := none, fault := some (.frame f) }
  | .ok bytes =>
    match s.written, room with
    | none, some f => { s with fault := some (.spool f) }
    | none, none => { s with written := some bytes, count := s.count + 1 }
    | some before, _ => { s with written := some (before ++ bytes), count := s.count + 1 }

def finish (truncated : Option String) (s : Spool) : Except ClientFault Cursor :=
  match s.fault, s.written with
  | some f, _ => .error f
  | none, none => .ok { truncated }
  | none, some bytes => .ok { spool := some bytes, remaining := s.count, truncated }

end Spool

end DiscCatalog
