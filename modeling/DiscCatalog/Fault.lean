import DiscCatalog.Frame.Fault
import DiscCatalog.Errno

namespace DiscCatalog

inductive ChannelFault where
  | io (cause : SystemFault)
  | pipe (action path : String) (cause : Errno)
  | queue (action : String) (key : Int32) (cause : Errno)
  | serverNotRunning
  | interrupted
  | shortRead (expected actual : Nat)
  | shortWrite (expected actual : Nat)
  | peerClosed
  | noReplyChannel
  | closed
  | invalidOrigin (origin : UInt32)
  | malformed (origin : Option UInt32) (cause : FrameFault)
  | frame (cause : FrameFault)
deriving DecidableEq

namespace ChannelFault

def message : ChannelFault → String
  | .io cause => s!"IO error: {cause.message}"
  | .pipe action path cause => s!"{action} failed on {path}: {cause.kernelText}"
  | .queue action key cause =>
    let digits := Text.hexNumber key.toUInt32.toNat
    s!"{action} failed on message queue 0x{digits}: {cause.kernelText}"
  | .serverNotRunning => "Server not running"
  | .interrupted => "Interrupted by signal"
  | .shortRead expected actual => s!"Short read: got {actual} of {expected} bytes"
  | .shortWrite expected actual => s!"Short write: wrote {actual} of {expected} bytes"
  | .peerClosed => "Peer closed the connection"
  | .noReplyChannel => "No reply channel is open"
  | .closed => "Transport is closed"
  | .invalidOrigin origin => s!"Origin id {origin} cannot be used as a message type"
  | .malformed _ cause => s!"Malformed message: {cause.message}"
  | .frame cause => s!"Protocol error: {cause.message}"

def causes : ChannelFault → List String
  | .io cause => [cause.message]
  | .pipe _ _ cause | .queue _ _ cause => [cause.kernelText]
  | .malformed _ cause | .frame cause => [cause.message]
  | _ => []

def ofPipe (action path : String) (errno : Errno) : ChannelFault :=
  if errno = .interrupted then .interrupted else .pipe action path errno

/-- The fault of a call on a message queue: a signal and the removal of the queue under a waiting
call are told apart from a failure. -/
def ofQueue (action : String) (key : Int32) (errno : Errno) : ChannelFault :=
  if errno = .interrupted then .interrupted
  else if errno = .removed then .peerClosed
  else .queue action key errno

def ofTransfer (errno : Errno) : ChannelFault :=
  if errno = .interrupted then .interrupted
  else if errno = .brokenPipe then .peerClosed
  else .io (.os errno)

end ChannelFault

inductive TableFault where
  | io (cause : SystemFault)
  | truncated
  | invalidText (cause : Text.Utf8Fault)
deriving DecidableEq

def TableFault.message : TableFault → String
  | .io cause => s!"io error: {cause.message}"
  | .truncated => "io error: failed to fill whole buffer"
  | .invalidText cause => s!"string is not valid utf8: {cause.message}"

inductive StoreFault where
  | io (cause : SystemFault)
  | unreadable (cause : TableFault)
  | emptyKey
  | keyTooLong (size max : Nat)
  | notFound (what : String)
  | locked (path : String)
deriving DecidableEq

namespace StoreFault

def message : StoreFault → String
  | .io cause => s!"IO error: {cause.message}"
  | .unreadable cause => s!"Serialization error: {cause.message}"
  | .emptyKey => "Catalog key is empty"
  | .keyTooLong size max => s!"Catalog key too long: {size} bytes, max {max}"
  | .notFound what => s!"No such record: {what}"
  | .locked path => s!"Store is locked by another process: {path}"

def causes : StoreFault → List String
  | .io cause => [cause.message]
  | .unreadable cause => [cause.message]
  | _ => []

end StoreFault

inductive ClientFault where
  | channel (cause : ChannelFault)
  | frame (cause : FrameFault)
  | rejected (diagnostic : String)
  | unexpectedReply (text : String)
  | spool (cause : SystemFault)
deriving DecidableEq

namespace ClientFault

def message : ClientFault → String
  | .channel cause => s!"Transport error: {cause.message}"
  | .frame cause => s!"Protocol error: {cause.message}"
  | .rejected diagnostic => s!"Server rejected request: {diagnostic}"
  | .unexpectedReply text => s!"Unexpected reply: {text}"
  | .spool cause => s!"Search spool error: {cause.message}"

def causes : ClientFault → List String
  | .channel cause => cause.message :: cause.causes
  | .frame cause => [cause.message]
  | .spool cause => [cause.message]
  | _ => []

end ClientFault

inductive ServerFault where
  | channel (cause : ChannelFault)
  | store (cause : StoreFault)
  | signal (cause : Errno)
deriving DecidableEq

namespace ServerFault

def message : ServerFault → String
  | .channel cause => s!"Transport error: {cause.message}"
  | .store cause => s!"Store error: {cause.message}"
  | .signal cause => s!"Failed to install signal handler: {cause.kernelText}"

def causes : ServerFault → List String
  | .channel cause => cause.message :: cause.causes
  | .store cause => cause.message :: cause.causes
  | .signal cause => [cause.kernelText]

end ServerFault

end DiscCatalog
