import DiscCatalog.Proofs.Channel.Answering.Loop
import DiscCatalog.Proofs.Channel.Answering.Pipe
import DiscCatalog.Proofs.Channel.Answering.Queue
import DiscCatalog.Proofs.Session.Alike
import DiscCatalog.Proofs.Session.Refinement

namespace DiscCatalog

namespace Machine

end Machine

namespace Session

variable {S C : Type} {m : Medium Machine S C} {machine machine' : Machine} {tables : Store}
  {spoolRoom : Option SystemFault} {steps : List Direct.Step} {answers : List StepAnswer} {s : S} {o : SessionSummary}

/-- Beside a server that is opened on a machine with its store in memory, a session comes to these answers. At its end
the server has handled so many requests, has this store, and still serves. -/
def Yields (m : Medium Machine S C) (spoolRoom : Option SystemFault) (machine : Machine) (tables : Store)
    (steps : List Direct.Step) (answers : List StepAnswer) (handled : Nat) (tables' : Store) : Prop :=
  ∃ hall session, (Hall.start m (.memory tables) machine).1 = .ok hall ∧
    Session.run m spoolRoom { hall } (steps.map Direct.Step.proxied) = (answers, session) ∧
    session.hall.service.handled = handled ∧ session.hall.service.world.repository = .memory tables' ∧
    session.hall.ended = none

end Session

end DiscCatalog
