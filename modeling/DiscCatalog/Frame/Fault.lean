import DiscCatalog.Text

namespace DiscCatalog

inductive FrameFault where
  | length (expected actual : Nat)
  | badMagic (found : List UInt8)
  | unsupportedVersion (version : Nat)
  | unknownOperation (tag : Nat)
  | unknownStatus (tag : Nat)
  | fieldTooLong (field : String) (size max : Nat)
  | embeddedNul (field : String)
  | invalidText (field : String)
deriving DecidableEq, Repr

namespace FrameFault

def bytesText (bs : List UInt8) : String := "[" ++ String.intercalate ", " (bs.map Text.hexByte) ++ "]"

def message : FrameFault → String
  | .length expected actual => s!"Frame has {actual} bytes, expected {expected}"
  | .badMagic found => s!"Bad frame magic: {bytesText found}"
  | .unsupportedVersion version => s!"Unsupported wire format version: {version}"
  | .unknownOperation tag => s!"Unknown operation tag: {tag}"
  | .unknownStatus tag => s!"Unknown status tag: {tag}"
  | .fieldTooLong field size max => s!"Field {field} is {size} bytes, max {max}"
  | .embeddedNul field => s!"Field {field} contains a NUL byte"
  | .invalidText field => s!"Field {field} is not valid UTF-8"

end FrameFault

end DiscCatalog
