import DiscCatalog.Frame.Fault

namespace DiscCatalog

inductive Slot where
  | catalog
  | title
  | kind
  | artist
  | trackCatalog
  | trackText
  | diagnostic
deriving DecidableEq, Repr

namespace Slot

def label : Slot → String
  | catalog => "catalog"
  | title => "title"
  | kind => "type"
  | artist => "artist"
  | trackCatalog => "track catalog"
  | trackText => "track text"
  | diagnostic => "diagnostic"

def capacity : Slot → Nat
  | catalog | kind | trackCatalog => 30
  | title | artist | trackText => 70
  | diagnostic => 80

def width (s : Slot) : Nat := s.capacity + 1

def write (s : Slot) (text : String) : Except FrameFault (List UInt8) :=
  let content := Text.bytes text
  if s.capacity < content.length then .error (.fieldTooLong s.label content.length s.capacity)
  else if 0 ∈ content then .error (.embeddedNul s.label)
  else .ok (content ++ List.replicate (s.width - content.length) 0)

/-- The text in a slot: the bytes before the first NUL, or all of them. -/
def read (s : Slot) (block : List UInt8) : Except FrameFault String :=
  match Text.ofBytes? (block.takeWhile (· ≠ 0)) with
  | some text => .ok text
  | none => .error (.invalidText s.label)

end Slot

end DiscCatalog
