import DiscCatalog.Errno

namespace DiscCatalog

structure Letter where
  type : Nat
  payload : List UInt8
deriving DecidableEq, Inhabited

structure Mailbox where
  key : Int32
  permissions : Nat
  letters : List Letter := []
deriving DecidableEq, Inhabited

/-- The machine's queues. They are known by their position, and one that was removed leaves a gap. -/
structure Mailboxes where
  boxes : List (Option Mailbox) := []
  /-- The most payload bytes that a queue holds. -/
  capacity : Nat := 16384
deriving DecidableEq, Inhabited

def Letter.load : List Letter → Nat
  | [] => 0
  | letter :: rest => letter.payload.length + load rest

namespace Mailboxes

def maxPayload : Nat := 8192

def box? (id : Nat) (q : Mailboxes) : Option Mailbox := q.boxes[id]?.join

def idOf? (key : Int32) (q : Mailboxes) : Option Nat :=
  if key = 0 then none else q.boxes.findIdx? fun box => box.any (·.key = key)

/-- Whether a queue's owner has all of some rights: 4 to read, 2 to write. -/
def grants (box : Mailbox) (rights : Nat) : Bool :=
  rights &&& ((box.permissions >>> 6) ^^^ 7) &&& 7 = 0

def rightsOf (permissions : Nat) : Nat :=
  ((permissions >>> 6) ||| (permissions >>> 3) ||| permissions) &&& 7

def find (key : Int32) (q : Mailboxes) : Except Errno Nat :=
  match q.idOf? key with
  | some id => .ok id
  | none => .error .noEntry

def add (key : Int32) (permissions : Nat) (q : Mailboxes) : Nat × Mailboxes :=
  (q.boxes.length, { q with boxes := q.boxes ++ [some { key, permissions }] })

def findOrAdd (key : Int32) (permissions : Nat) (q : Mailboxes) : Except Errno Nat × Mailboxes :=
  match q.idOf? key with
  | some id =>
    match q.box? id with
    | some box =>
      (if grants box (rightsOf permissions) then .ok id else .error .accessDenied, q)
    | none => (.error .invalid, q)
  | none =>
    let (id, q) := q.add key permissions
    (.ok id, q)

/-- Puts a message on a queue, which waits while there is no room for it. -/
def send (id : Nat) (type : Int) (payload : List UInt8) (q : Mailboxes) : Except Errno Unit × Mailboxes :=
  if maxPayload < payload.length ∨ type < 1 then (.error .invalid, q)
  else match q.box? id with
  | none => (.error .invalid, q)
  | some box =>
    if ¬ grants box 2 then (.error .accessDenied, q)
    else if q.capacity < Letter.load box.letters + payload.length
        ∨ q.capacity < box.letters.length + 1 then (.error .interrupted, q)
    else
      let letters := box.letters ++ [{ type := type.toNat, payload }]
      (.ok (), { q with boxes := q.boxes.set id (some { box with letters }) })

def receive (id type room : Nat) (q : Mailboxes) : Except Errno (List UInt8) × Mailboxes :=
  match q.box? id with
  | none => (.error .invalid, q)
  | some box =>
    if ¬ grants box 4 then (.error .accessDenied, q)
    else match box.letters.findIdx? fun letter => type = 0 ∨ letter.type = type with
    | none => (.error .interrupted, q)
    | some i =>
      let taken := (box.letters[i]?.map (·.payload)).getD []
      let letters := box.letters.eraseIdx i
      (.ok (taken.take room), { q with boxes := q.boxes.set id (some { box with letters }) })

def remove (id : Nat) (q : Mailboxes) : Bool × Mailboxes :=
  ((q.box? id).isSome, { q with boxes := q.boxes.set id none })

end Mailboxes

end DiscCatalog
