import DiscCatalog.Channel.Bench

namespace DiscCatalog

namespace Bench

variable {W S C : Type}

def arrive (m : Medium W S C) (client : String) (origin : UInt32) (request : Message) (b : Bench W S C) :
    Except ChannelFault UInt32 × Bench W S C :=
  let (opened, b) := b.openClient m client origin
  match opened, b.clients.lookup client with
  | .ok o, some c =>
    let (sent, c, world) := m.client.send request (c, b.world)
    (sent.map fun _ => o, { b with world, clients := assign client c b.clients })
  | _, _ => (opened, b)

/-- A server receives while a client arrives: if it waits for one it goes on receiving after that. -/
theorem receiveFrom_eq (m : Medium W S C) (server client : String) (origin : UInt32) (request : Message)
    (b : Bench W S C) :
    b.receiveFrom m server client origin request = (b.servers.lookup server).map fun s =>
      let (early, s, world) := m.poll (s, b.world)
      let (opened, b) := arrive m client origin request { b with world, servers := assign server s b.servers }
      let (outcome, s, world) : Except ChannelFault Message × S × W :=
        match early with
        | some outcome => (outcome, s, b.world)
        | none => m.server.receive (s, b.world)
      (.received outcome opened, { b with world, servers := assign server s b.servers }) := by
  unfold receiveFrom arrive
  refine congrArg (Option.map · _) (funext fun s => ?_)
  obtain ⟨early, s, world⟩ := m.poll (s, b.world)
  dsimp only
  generalize openClient m client origin { b with world, servers := assign server s b.servers } = came
  obtain ⟨opened, after⟩ := came
  cases opened with
  | error f => rfl
  | ok o =>
    dsimp only
    generalize after.clients.lookup client = found
    cases found with
    | none => rfl
    | some c =>
      refine Prod.ext (congrArg (EndAnswer.received _) ?_) rfl
      change _ = (m.client.send request (c, after.world)).1.map fun _ => o
      dsimp only
      cases (m.client.send request (c, after.world)).1 <;> rfl

section Clients

variable {b : Bench W S C} {name : String} {c : C}

theorem onClient_gone (gone : b.clients.lookup name = none) (f : C × W → EndAnswer × C × W) :
    b.onClient name f = none := by
  rw [onClient, gone, Option.map_none]

theorem onClient_there (found : b.clients.lookup name = some c) (f : C × W → EndAnswer × C × W) :
    b.onClient name f = some ((f (c, b.world)).1,
      { b with world := (f (c, b.world)).2.2, clients := assign name (f (c, b.world)).2.1 b.clients }) := by
  rw [onClient, found, Option.map_some]

end Clients

section Single

variable {b : Bench W S C} {name : String} {s : S} (single : b.servers = [(name, s)])

include single

theorem lookup_single (n : String) : b.servers.lookup n = if n = name then some s else none := by
  rw [single, List.lookup_cons]
  by_cases same : n = name
  · simp [same]
  · have other : (n == name) = false := by simpa using same
    rw [other, if_neg same, List.lookup_nil]

theorem assign_single (s' : S) : assign name s' b.servers = [(name, s')] := by
  simp [assign, single]

theorem onServer_single (n : String) (f : S × W → EndAnswer × S × W) :
    b.onServer n f = if n = name then some ((f (s, b.world)).1,
      { b with world := (f (s, b.world)).2.2, servers := [(name, (f (s, b.world)).2.1)] }) else none := by
  rw [onServer, lookup_single single]
  split
  · next same =>
    subst same
    simp only [Option.map_some, assign_single single]
  · rfl

end Single

end Bench

end DiscCatalog
