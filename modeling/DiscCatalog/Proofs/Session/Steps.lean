import DiscCatalog.Session

namespace DiscCatalog

namespace Session

variable {S C : Type} {m : Medium Machine S C} {spoolRoom : Option SystemFault} {session : Session S C} {name : String}
  {hall : Hall S} {c : C} {member member' : Member C} {call : ClientCall} {answer : ClientAnswer}

theorem advance_opened {origin : UInt32}
    (opened : Hall.machinePart.lift (m.openClient origin) session.hall = (.ok c, hall)) :
    session.advance m spoolRoom (.openClient name origin) = (.opened (.ok origin),
      { hall := (release m (session.members.lookup name) hall).settle m
        members := assign name { connection := c } session.members }) := by
  simp only [advance, step, opened]

theorem advance_dropped :
    session.advance m spoolRoom (.drop name) = (.dropped (session.members.lookup name).isSome,
      { hall := (release m (session.members.lookup name) session.hall).settle m
        members := unassign name session.members }) := rfl

theorem advance_called (there : session.members.lookup name = some member)
    (called : callAs m spoolRoom member call session.hall = (answer, member', hall)) :
    session.advance m spoolRoom (.call name call) =
      (.answered answer, { hall := hall.settle m, members := assign name member' session.members }) := by
  simp only [advance, step, there, called]

theorem advance_absent (absent : session.members.lookup name = none) (call : ClientCall) :
    session.advance m spoolRoom (.call name call) = (.noClient, { session with hall := session.hall.settle m }) := by
  simp only [advance, step, absent]

end Session

end DiscCatalog
