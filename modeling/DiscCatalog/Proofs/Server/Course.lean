import Mathlib.Data.List.GetD
import Mathlib.Data.Nat.Find
import DiscCatalog.Proofs.Server.Attended

namespace DiscCatalog

namespace ServerPort

variable {τ : Type}

/-- A channel on which these outcomes are received one after another, and which is closed for ever after them. What is
done with replies is left to `port`. -/
def playing (port : ServerPort τ) : ServerPort (List (Except ChannelFault Message) × τ) :=
  { port.beside (List (Except ChannelFault Message)) with
    receive := fun s =>
      match s.1 with
      | [] => (.error .closed, s)
      | outcome :: later => (outcome, later, s.2)
    backlog := fun s => s.1.length }

def played (outcomes : List (Except ChannelFault Message)) (k : Nat) : Except ChannelFault Message :=
  outcomes.getD k (.error .closed)

theorem played_tail (outcomes : List (Except ChannelFault Message)) (k : Nat) :
    played outcomes.tail k = played outcomes (k + 1) := by
  cases outcomes <;> rfl

theorem receive_playing (port : ServerPort τ) (outcomes : List (Except ChannelFault Message)) (w : τ) :
    port.playing.receive (outcomes, w) = (played outcomes 0, outcomes.tail, w) := by
  cases outcomes <;> rfl

end ServerPort

namespace ServerCall

theorem Replies.sent {m : Message} {sends : List ServerCall} (h : Replies m sends) : .closed ∉ sends := by
  intro there
  obtain ⟨r, outcome, same, -⟩ := h.addressed _ there
  cases same

theorem Block.open {block : List ServerCall} (h : Block block) : .closed ∉ block := by
  cases h with
  | unanswered | refused | rejected => simp
  | answered replies => simp [replies.sent]

end ServerCall

namespace Server

open ServerPort (played)

def Halts : Except ChannelFault Message → Prop
  | .ok _ | .error (.malformed _ _) | .error (.shortRead _ _) | .error .interrupted => False
  | .error _ => True

/-- How a run goes in which `n` questions whether to stop and the receives after them let it go on: how many receives
it makes, and what it ends with. -/
inductive Course (stop : Nat → Bool) (outcomes : List (Except ChannelFault Message)) (n : Nat) :
    (receives : Nat) → Except ServerFault Unit → Prop
  | stopped : (∀ k < n, stop k = false ∧ ¬ Halts (played outcomes k)) → stop n = true → Course stop outcomes n n (.ok ())
  | failed {f : ChannelFault} : (∀ k < n, stop k = false ∧ ¬ Halts (played outcomes k)) → stop n = false →
      played outcomes n = .error f → Halts (.error f) → Course stop outcomes n (n + 1) (.error (.channel f))

section Course

variable {stop : Nat → Bool} {outcomes : List (Except ChannelFault Message)}

theorem exists_course (stop : Nat → Bool) (outcomes : List (Except ChannelFault Message)) :
    ∃ n ≤ outcomes.length, ∃ receives result, Course stop outcomes n receives result := by
  classical
  let ends (n : Nat) : Prop := stop n = true ∨ Halts (played outcomes n)
  have last : ends outcomes.length := by
    refine .inr ?_
    rw [played, List.getD_eq_default _ _ (Nat.le_refl _)]
    trivial
  have some : ∃ n, ends n := ⟨_, last⟩
  have before : ∀ k < Nat.find some, stop k = false ∧ ¬ Halts (played outcomes k) := by
    intro k below
    obtain ⟨untold, goes⟩ := not_or.1 (Nat.find_min some below)
    exact ⟨Bool.eq_false_iff.2 untold, goes⟩
  refine ⟨Nat.find some, Nat.find_min' some last, ?_⟩
  by_cases told : stop (Nat.find some) = true
  · exact ⟨_, _, .stopped before told⟩
  · have halts := (Nat.find_spec some).resolve_left told
    cases next : played outcomes (Nat.find some) with
    | ok m =>
      rw [next] at halts
      exact halts.elim
    | error f =>
      rw [next] at halts
      exact ⟨_, _, .failed before (Bool.eq_false_iff.2 told) next halts⟩

theorem Course.tail {n receives : Nat} {result : Except ServerFault Unit}
    (h : Course stop outcomes (n + 1) receives result) :
    (stop 0 = false ∧ ¬ Halts (played outcomes 0)) ∧
      ∃ later, receives = later + 1 ∧ Course (fun k => stop (k + 1)) outcomes.tail n later result := by
  have shifted (before : ∀ k < n + 1, stop k = false ∧ ¬ Halts (played outcomes k)) :
      ∀ k < n, stop (k + 1) = false ∧ ¬ Halts (played outcomes.tail k) := by
    intro k below
    rw [ServerPort.played_tail]
    exact before (k + 1) (Nat.succ_lt_succ below)
  cases h with
  | stopped before told => exact ⟨before 0 (Nat.succ_pos n), n, rfl, .stopped (shifted before) told⟩
  | failed before untold next halts =>
    rw [← ServerPort.played_tail] at next
    exact ⟨before 0 (Nat.succ_pos n), n + 1, rfl, .failed (shifted before) untold next halts⟩

end Course

section Loop

variable {σ : Type} (store : RecordStore σ) (port : ServerPort σ) (stop : Nat → Bool)

/-- A run without any bound on how long it gets, with the states of the server in which it asks whether to stop. -/
inductive Loops : (checks : Nat) → Service σ → List (Service σ) → Run σ → Prop
  | stopped {checks : Nat} {v : Service σ} : stop checks = true → Loops checks v [v] ⟨.ok (), checks + 1, v⟩
  | onward {checks : Nat} {v u : Service σ} {outcome : Except ServerFault Unit} {asked : List (Service σ)} {run : Run σ} :
      stop checks = false → handleNext store port v = (outcome, u) →
      outcome = .ok () ∨ outcome = .error (.channel .interrupted) → Loops (checks + 1) u asked run →
      Loops checks v (v :: asked) run
  | failed {checks : Nat} {v u : Service σ} {f : ServerFault} :
      stop checks = false → handleNext store port v = (.error f, u) → f ≠ .channel .interrupted →
      Loops checks v [v] ⟨.error f, checks + 1, u⟩

variable {store port stop} {checks room : Nat} {v u : Service σ}

theorem runUntil_of_serve {result : Except ServerFault Unit}
    (served : serve store port stop (port.backlog v.world + 1) 0 v = ⟨result, checks, u⟩) :
    runUntil store port stop v = ⟨result, checks, { u with world := port.close u.world }⟩ := by
  unfold runUntil
  simp only [served]

end Loop

def verdict : Except ChannelFault Message → Except ServerFault Unit
  | .ok _ | .error (.malformed _ _) | .error (.shortRead _ _) => .ok ()
  | .error f => .error (.channel f)

theorem handleNext_verdict {σ : Type} (store : RecordStore σ) {port : ServerPort σ} {v : Service σ} {s : σ}
    {outcome : Except ChannelFault Message} (taken : port.receive v.world = (outcome, s)) :
    (handleNext store port v).1 = verdict outcome := by
  rw [handleNext, taken]
  cases outcome with
  | ok m => rfl
  | error fault =>
    cases fault with
    | malformed origin cause => cases origin <;> rfl
    | _ => rfl

theorem verdict_of_not_halts {outcome : Except ChannelFault Message} (h : ¬ Halts outcome) :
    verdict outcome = .ok () ∨ verdict outcome = .error (.channel .interrupted) := by
  cases outcome with
  | ok => exact .inl rfl
  | error f =>
    cases f with
    | malformed | shortRead => exact .inl rfl
    | interrupted => exact .inr rfl
    | _ => exact absurd trivial h

theorem verdict_of_halts {f : ChannelFault} (h : Halts (.error f)) :
    verdict (.error f) = .error (.channel f) ∧ ServerFault.channel f ≠ .channel .interrupted := by
  cases f with
  | malformed | shortRead | interrupted => exact h.elim
  | _ => exact ⟨rfl, by simp⟩

/-- How many of so many receives brought a request. -/
def decoded (outcomes : List (Except ChannelFault Message)) (receives : Nat) : Nat :=
  (outcomes.take receives).countP (·.isOk)

theorem decoded_one (outcomes : List (Except ChannelFault Message)) :
    decoded outcomes 1 = if (played outcomes 0).isOk then 1 else 0 := by
  cases outcomes with
  | nil => rfl
  | cons outcome later => simp [decoded, played]

theorem decoded_succ (outcomes : List (Except ChannelFault Message)) (receives : Nat) :
    decoded outcomes (receives + 1) = decoded outcomes 1 + decoded outcomes.tail receives := by
  cases outcomes with
  | nil => simp [decoded]
  | cons outcome later =>
    have first : (outcome :: later).take (receives + 1) = [outcome] ++ later.take receives := rfl
    simp only [decoded, first, List.countP_append]
    rfl

section Playing

variable {τ : Type} (port : ServerPort τ)

/-- A server that receives what is listed. -/
abbrev Playing (τ : Type) := Noted (List (Except ChannelFault Message) × τ)

theorem deliver_playing (m : Message) (replies : List Message)
    (w : (List (Except ChannelFault Message) × τ) × List ServerCall) :
    (deliver port.playing.noting m replies w).1.1 = w.1.1 := by
  induction replies generalizing w with
  | nil => rfl
  | cons r rest ih =>
    by_cases last : rest = []
    · subst last
      rfl
    · have kept : (port.playing.noting.replySend r w).2.1.1 = w.1.1 := rfl
      rw [deliver_cons _ m r last]
      cases sent : port.playing.noting.replySend r w with
      | mk outcome w' =>
        rw [sent] at kept
        cases outcome with
        | error cause => exact kept
        | ok => exact (ih w').trans kept

theorem dispatch_playing (m : Message) (s : Playing τ) :
    (dispatch (notedStore _) (notedPort port.playing) m s).2.1.1 = s.2.1.1 := by
  have kept : ((notedPort port.playing).replyBegin m.origin s).2.2.1.1 = s.2.1.1 := rfl
  rcases begins : (notedPort port.playing).replyBegin m.origin s with ⟨fault | ⟨⟩, begun⟩
  · rw [begins] at kept
    rwa [dispatch_unbegun begins]
  · rw [begins] at kept
    obtain ⟨scan, answered⟩ := answer_rescans port.playing.noting m begun.1 begun.2
    rw [dispatch_begun begins, answered]
    exact (deliver_playing port m (answersTo m begun.1) begun.2).trans kept

theorem reject_playing (origin : UInt32) (cause : FrameFault) (s : Playing τ) :
    (reject (notedPort port.playing) origin cause s).2.1.1 = s.2.1.1 := by
  have kept : ((notedPort port.playing).replyBegin origin s).2.2.1.1 = s.2.1.1 := rfl
  rcases begins : (notedPort port.playing).replyBegin origin s with ⟨fault | ⟨⟩, begun⟩
  · rw [begins] at kept
    rwa [reject_unbegun begins]
  · rw [begins] at kept
    rwa [reject_begun begins]

structure Turns (outcomes : List (Except ChannelFault Message)) (v u : Service (Playing τ)) (block : List ServerCall) :
    Prop where
  shape : ServerCall.Block block
  first : block.head? = some (.received (played outcomes 0))
  noted : Notes v.world u.world block
  left : u.world.2.1.1 = outcomes.tail
  handled : u.handled = v.handled + decoded outcomes 1

theorem handleNext_playing {outcomes : List (Except ChannelFault Message)} {v : Service (Playing τ)}
    (listed : v.world.2.1.1 = outcomes) :
    ∃ u block, handleNext (notedStore _) (notedPort port.playing) v = (verdict (played outcomes 0), u) ∧
      Turns outcomes v u block := by
  let got : Playing τ :=
    (v.world.1, (outcomes.tail, v.world.2.1.2), v.world.2.2 ++ [.received (played outcomes 0)])
  have first : Notes v.world got [.received (played outcomes 0)] := rfl
  have received : (notedPort port.playing).receive v.world = (played outcomes 0, got) := by
    refine ServerPort.receive_noting ?_
    rw [← listed]
    exact port.receive_playing v.world.2.1.1 v.world.2.1.2
  have turns {calls : List ServerCall} {u : Service (Playing τ)}
      (shape : ServerCall.Block (.received (played outcomes 0) :: calls)) (noted : Notes got u.world calls)
      (left : u.world.2.1.1 = outcomes.tail) (handled : u.handled = v.handled + if (played outcomes 0).isOk then 1 else 0) :
      Turns outcomes v u (.received (played outcomes 0) :: calls) :=
    ⟨shape, rfl, first.trans noted, left, handled.trans (congrArg _ (decoded_one outcomes).symm)⟩
  have quiet (unanswered : ServerCall.addressee (played outcomes 0) = none) (other : (played outcomes 0).isOk = false) :
      Turns outcomes v { v with world := got } [.received (played outcomes 0)] := by
    refine turns (.unanswered unanswered) (List.append_nil _).symm rfl ?_
    rw [other]
    rfl
  have said := handleNext_verdict (notedStore _) received
  have done := handleNext_cases (notedStore _) received
  generalize played outcomes 0 = next at turns quiet said done ⊢
  obtain ⟨m, rfl, done⟩ | ⟨origin, cause, rfl, done⟩ | ⟨fault, rfl, unread, done⟩ := done
  · obtain ⟨calls, shape, noted⟩ := dispatch_notes port.playing m got
    exact ⟨_, _, done, turns shape noted (dispatch_playing port m got) rfl⟩
  · obtain ⟨calls, shape, noted⟩ := reject_notes port.playing origin cause got
    exact ⟨_, _, done, turns shape noted (reject_playing port origin cause got) rfl⟩
  · exact ⟨_, _, Prod.ext said done, quiet (ServerCall.addressee_eq_none unread) rfl⟩

/-- What was noted and counted of a run whenever it asks whether to stop, and in the end, if these are the blocks of
calls that it makes. -/
structure Keeps (outcomes : List (Except ChannelFault Message)) (v : Service (Playing τ))
    (asked : List (Service (Playing τ))) (blocks : List (List ServerCall)) (u : Service (Playing τ)) : Prop where
  shape : ∀ k block, blocks[k]? = some block → ServerCall.Block block ∧ block.head? = some (.received (played outcomes k))
  between : ∀ k w, asked[k]? = some w →
    Notes v.world w.world (blocks.take k).flatten ∧ w.handled = v.handled + decoded outcomes k
  after : Notes v.world u.world blocks.flatten ∧ u.handled = v.handled + decoded outcomes blocks.length

theorem Keeps.here (outcomes : List (Except ChannelFault Message)) (v : Service (Playing τ))
    {asked : List (Service (Playing τ))} (once : asked = [] ∨ asked = [v]) : Keeps outcomes v asked [] v := by
  have same : Notes v.world v.world [] ∧ v.handled = v.handled + decoded outcomes 0 := ⟨(List.append_nil _).symm, rfl⟩
  refine ⟨by simp, fun k w there => ?_, same⟩
  obtain rfl | rfl := once
  · cases there
  · cases k with
    | zero =>
      cases there
      exact same
    | succ k => cases there

theorem Keeps.cons {outcomes : List (Except ChannelFault Message)} {v w u : Service (Playing τ)} {block : List ServerCall}
    {asked : List (Service (Playing τ))} {blocks : List (List ServerCall)} (turn : Turns outcomes v w block)
    (later : Keeps outcomes.tail w asked blocks u) : Keeps outcomes v (v :: asked) (block :: blocks) u := by
  have counted (n : Nat) {x : Service (Playing τ)} (handled : x.handled = w.handled + decoded outcomes.tail n) :
      x.handled = v.handled + decoded outcomes (n + 1) := by
    rw [handled, turn.handled, decoded_succ outcomes n, Nat.add_assoc]
  refine ⟨fun k b there => ?_, fun k x there => ?_, turn.noted.trans later.after.1, counted _ later.after.2⟩
  · cases k with
    | zero =>
      cases there
      exact ⟨turn.shape, turn.first⟩
    | succ k =>
      rw [← ServerPort.played_tail]
      exact later.shape k b there
  · cases k with
    | zero =>
      cases there
      exact ⟨(List.append_nil _).symm, rfl⟩
    | succ k =>
      obtain ⟨noted, handled⟩ := later.between k x there
      exact ⟨turn.noted.trans noted, counted k handled⟩

/-- A run that has room for its course keeps to it. -/
theorem serve_course {stop : Nat → Bool} {checks n receives room : Nat} {result : Except ServerFault Unit}
    {outcomes : List (Except ChannelFault Message)} {v : Service (Playing τ)} (listed : v.world.2.1.1 = outcomes)
    (course : Course (fun k => stop (checks + k)) outcomes n receives result) (enough : n < room) :
    ∃ asked blocks u,
      serve (notedStore _) (notedPort port.playing) stop room checks v = ⟨result, checks + n + 1, u⟩ ∧
        Loops (notedStore _) (notedPort port.playing) stop checks v asked ⟨result, checks + n + 1, u⟩ ∧
        asked.length = n + 1 ∧ blocks.length = receives ∧ Keeps outcomes v asked blocks u := by
  induction n generalizing checks receives room outcomes v with
  | zero =>
    obtain ⟨room, rfl⟩ := Nat.exists_eq_succ_of_ne_zero (Nat.ne_zero_of_lt enough)
    obtain ⟨u, block, handled, turn⟩ := handleNext_playing port listed
    cases course with
    | stopped _ told => exact ⟨[v], [], v, serve_stopped told, .stopped told, rfl, rfl, .here outcomes v (.inr rfl)⟩
    | failed _ untold next halts =>
      obtain ⟨fault, fails⟩ := verdict_of_halts halts
      rw [next, fault] at handled
      exact ⟨[v], [block], u, serve_failed untold handled fails, .failed untold handled fails, rfl, rfl,
        .cons turn (.here outcomes.tail u (.inl rfl))⟩
  | succ n ih =>
    obtain ⟨room, rfl⟩ := Nat.exists_eq_succ_of_ne_zero (Nat.ne_zero_of_lt enough)
    obtain ⟨⟨untold, goes⟩, later, rfl, rest⟩ := course.tail
    have shifted : (fun k => stop (checks + (k + 1))) = fun k => stop (checks + 1 + k) := by
      funext k
      rw [Nat.add_right_comm, Nat.add_assoc]
    rw [shifted] at rest
    obtain ⟨w, block, handled, turn⟩ := handleNext_playing port listed
    obtain ⟨asked, blocks, u, served, loops, questions, receives, keeps⟩ :=
      ih turn.left rest (Nat.lt_of_succ_lt_succ enough)
    have onward := verdict_of_not_halts goes
    have count : checks + 1 + n + 1 = checks + (n + 1) + 1 := by omega
    rw [count] at served loops
    exact ⟨v :: asked, block :: blocks, u, (serve_onward untold handled onward).trans served,
      .onward untold handled onward loops, congrArg Nat.succ questions, congrArg Nat.succ receives, .cons turn keeps⟩

/-- For whatever is received and whatever the answers are to the question whether to stop, there is one course that
every run takes, over every store and whatever becomes of its replies. It ends with the first question that is answered
so, or with the first receive that fails otherwise than by a request that could not be read or by a signal. Whenever the
server asks, it has done with one block of calls for each receive and has counted the requests that it received, and no
more; in the end it closes the channel, which it never did before. -/
theorem runs_its_course (stop : Nat → Bool) (outcomes : List (Except ChannelFault Message)) :
    ∃ n ≤ outcomes.length, ∃ receives result, Course stop outcomes n receives result ∧
      ∀ (τ : Type) (port : ServerPort τ) (repository : Repository) (host : Host) (w : τ) (handled : Nat),
        let start : Service (Playing τ) := { world := ((repository, host), (outcomes, w), []), handled }
        let run := runUntil (notedStore _) (notedPort port.playing) stop start
        ∃ asked blocks u,
          Loops (notedStore _) (notedPort port.playing) stop 0 start asked ⟨result, n + 1, u⟩ ∧
          run = ⟨result, n + 1, { u with world := (notedPort port.playing).close u.world }⟩ ∧
          asked.length = n + 1 ∧ blocks.length = receives ∧ Keeps outcomes start asked blocks u ∧
          run.service.handled = handled + decoded outcomes receives ∧
          run.service.world.2.2 = blocks.flatten ++ [.closed] ∧ .closed ∉ blocks.flatten := by
  obtain ⟨n, within, receives, result, course⟩ := exists_course stop outcomes
  refine ⟨n, within, receives, result, course, fun τ port repository host w handled => ?_⟩
  intro start run
  have whole : (fun k => stop (0 + k)) = stop := by
    funext k
    rw [Nat.zero_add]
  obtain ⟨asked, blocks, u, served, loops, questions, count, keeps⟩ :=
    serve_course port (v := start) rfl (whole.symm ▸ course) (Nat.lt_succ_of_le within)
  rw [Nat.zero_add] at served loops
  obtain ⟨noted, counted⟩ := keeps.after
  have ran : run = _ := runUntil_of_serve served
  refine ⟨asked, blocks, u, loops, ran, questions, count, keeps, ?_, ?_, ?_⟩
  · rw [ran, ← count]
    exact counted
  · rw [ran]
    exact congrArg (· ++ [ServerCall.closed]) noted
  · intro there
    obtain ⟨block, member, there⟩ := List.mem_flatten.1 there
    obtain ⟨k, here⟩ := List.mem_iff_getElem?.1 member
    exact (keeps.shape k block here).1.open there

end Playing

end Server

end DiscCatalog
