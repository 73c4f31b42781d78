import DiscCatalog.CommandLine.Terminal

namespace DiscCatalog

def environmentOfProcess : IO Environment := do
  return {
    home := ← IO.getEnv "HOME"
    temporary := ← IO.getEnv "TMPDIR"
    dataHome := ← IO.getEnv "XDG_DATA_HOME"
    configHome := ← IO.getEnv "XDG_CONFIG_HOME" }

def Outcome.print (o : Outcome) : IO Unit := do
  IO.print o.output
  IO.eprint o.complaint

def commandWords (line : String) : List String :=
  (line.trimAsciiEnd.toString.splitOn " ").filter (· ≠ "")

partial def serveLines (e : Environment) (t : Terminal) : IO UInt32 := do
  let line ← (← IO.getStdin).getLine
  if line.isEmpty then
    let (outcome, _) := t.stop
    outcome.print
    return UInt32.ofNat outcome.exit
  else
    let (outcome, t) := t.run e (commandWords line)
    outcome.print
    serveLines e t

end DiscCatalog

def main (args : List String) : IO UInt32 := do
  let e ← DiscCatalog.environmentOfProcess
  let home := DiscCatalog.pathSteps (e.home.getD "/")
  let (outcome, t) := (DiscCatalog.Terminal.fresh home).run e args
  outcome.print
  if t.servers.isEmpty then return UInt32.ofNat outcome.exit else DiscCatalog.serveLines e t
