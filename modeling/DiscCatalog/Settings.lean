import DiscCatalog.Host.Walk

namespace DiscCatalog

inductive ChannelKind where
  | pipe
  | queue
deriving DecidableEq, Repr, Inhabited

structure PipeSettings where
  directory : String
  connectRetries : UInt32 := 5
  /-- How many milliseconds it waits in between. -/
  retryDelay : UInt64 := 20
  permissions : UInt32 := 0o666
deriving DecidableEq, Inhabited

structure QueueSettings where
  serverKey : Int32 := 1234
  clientKey : Int32 := 4321
  permissions : UInt32 := 0o666
deriving DecidableEq, Inhabited

structure Settings where
  kind : ChannelKind := .pipe
  pipe : PipeSettings
  queue : QueueSettings := {}
  dataDirectory : String
deriving DecidableEq, Inhabited

namespace PipeSettings

def serverPath (s : PipeSettings) : String := joinPath s.directory "server_pipe"

def clientPath (s : PipeSettings) (origin : UInt32) : String :=
  joinPath s.directory s!"cli_{origin}_fifo"

end PipeSettings

structure Environment where
  home : Option String := none
  temporary : Option String := none
  dataHome : Option String := none
  configHome : Option String := none
deriving DecidableEq, Inhabited

namespace Environment

def temporaryDirectory (e : Environment) : String := e.temporary.getD "/tmp"

def underHome (e : Environment) (given : Option String) (usual : String) : Option String :=
  match given.filter (·.startsWith "/"), e.home.filter (· ≠ "") with
  | some path, _ => some path
  | none, some home => some (joinPath home usual)
  | none, none => none

def dataDirectory (e : Environment) : String :=
  joinPath ((e.underHome e.dataHome ".local/share").getD "~/.local/share") "cdipc"

def settingsFile? (e : Environment) : Option String :=
  (e.underHome e.configHome ".config").map fun directory =>
    joinPath (joinPath directory "cdipc") "config.toml"

end Environment

def Settings.usual (e : Environment) : Settings where
  pipe := { directory := e.temporaryDirectory }
  dataDirectory := e.dataDirectory

end DiscCatalog
