import DiscCatalog.Proofs.Archive.Loading
import DiscCatalog.Proofs.Session.Summary

namespace DiscCatalog

namespace Server

variable {origin : UInt32} {request : Request} {tables : Store}

end Server

namespace Direct

def Step.alive : Step → List (String × UInt32) → List (String × UInt32)
  | .openClient name origin, alive => assign name origin alive
  | .drop name, alive => unassign name alive
  | .call name .close, alive => unassign name alive
  | .call _ _, alive => alive

/-- A client that comes has an origin, which no other client has that is there. -/
def Step.Apart : Step → List (String × UInt32) → Prop
  | .openClient _ origin, alive => origin ≠ 0 ∧ ∀ e ∈ alive, e.2 ≠ origin
  | _, _ => True

/-- Throughout these steps all clients that are there have origins of their own. -/
def Apart : List (String × UInt32) → List Step → Prop
  | _, [] => True
  | alive, step :: steps => step.Apart alive ∧ Apart (step.alive alive) steps

instance (step : Step) (alive : List (String × UInt32)) : Decidable (step.Apart alive) :=
  match step with
  | .openClient _ origin => inferInstanceAs (Decidable (origin ≠ 0 ∧ ∀ e ∈ alive, e.2 ≠ origin))
  | .call _ _ | .drop _ => inferInstanceAs (Decidable True)

instance decidableApart : (alive : List (String × UInt32)) → (steps : List Step) → Decidable (Apart alive steps)
  | _, [] => inferInstanceAs (Decidable True)
  | alive, step :: steps =>
    have := decidableApart (step.alive alive) steps
    inferInstanceAs (Decidable (step.Apart alive ∧ Apart (step.alive alive) steps))

end Direct

namespace Session

open Direct

variable {spoolRoom : Option SystemFault} {o : SessionSummary} {name : String} {g : ClientSummary} {c : ClientCall}
  {request : Request} {alive : List (String × UInt32)}

def Comes (spoolRoom : Option SystemFault) (o : SessionSummary) (step : SessionStep) (answer : StepAnswer)
    (o' : SessionSummary) : Prop :=
  ∀ {S C : Type} {m : Medium Machine S C} (a : m.Answering) {session : Session S C}, a.Fits o session →
    ∃ session', session.advance m spoolRoom step = (answer, session') ∧ a.Fits o' session'

section Calls

variable (found : o.clients.lookup name = some g)

include found

end Calls

end Session

end DiscCatalog
