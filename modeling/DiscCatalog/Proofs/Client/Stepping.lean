import DiscCatalog.Proofs.Client.Interrupted
import DiscCatalog.Proofs.Client.Bursts

namespace DiscCatalog

namespace ClientCall

def stepsOn : ClientCall → Bool
  | .find _ false => true
  | _ => false

def letsGo : ClientCall → Bool
  | .find _ true | .close => true
  | _ => false

end ClientCall

theorem Cursor.rest_eq_none_iff {entries : List CatalogEntry} {truncated : Option String} :
    rest entries truncated = none ↔ entries.length = 0 := by
  cases entries <;> simp [rest]

namespace Client

variable {σ : Type} {port : ClientPort σ}

/-- A search changes nothing but the channel, and what it gives is a cursor over entries that fit their frames. -/
theorem search_cases (port : ClientPort σ) (query : String) (c : ClientState σ) :
    ∃ found t, search port query c = (found, { c with world := t }) ∧ ∀ cursor, found = .ok cursor →
      ∃ entries truncated, (∀ e ∈ entries, e.Encodes) ∧ cursor = .onto entries truncated := by
  rcases sent : port.send (.ofRequest (port.origin c.world) (.findCatalog query)) c.world with ⟨fault | ⟨⟩, asked⟩
  · exact ⟨_, asked, search_refused sent, by simp⟩
  rcases begun : port.replyBegin asked with ⟨fault | ⟨⟩, opened⟩
  · exact ⟨_, _, search_unbegun sent begun, by simp⟩
  refine ⟨_, _, search_begun sent begun rfl, fun cursor same => ?_⟩
  obtain ⟨entries, -, fit, onto⟩ := search_eq_ok ((search_begun sent begun rfl).trans (congrArg (·, _) same))
  exact ⟨entries, cursor.truncated, fit, onto⟩

theorem exchange_cases (port : ClientPort σ) (request : Request) (c : ClientState σ) :
    ∃ outcome t, exchange port request c = (outcome, { c with world := t }) := by
  rcases sent : port.send (.ofRequest (port.origin c.world) request) c.world with ⟨fault | ⟨⟩, asked⟩
  · exact ⟨_, asked, exchange_refused sent⟩
  rcases begun : port.replyBegin asked with ⟨fault | ⟨⟩, opened⟩
  · exact ⟨_, _, exchange_failed sent (.inl begun)⟩
  rcases received : port.replyReceive opened with ⟨fault | reply, last⟩
  · exact ⟨_, _, exchange_failed sent (.inr ⟨opened, begun, received⟩)⟩
  · exact ⟨_, _, exchange_received sent begun received⟩

end Client

namespace Desk

variable {σ : Type}

def Holds (d : Desk σ) (left : List CatalogEntry) : Prop :=
  ∃ truncated, (∀ e ∈ left, e.Encodes) ∧ d.client.held = Cursor.rest left truncated

/-- Until a search is let go of, the calls that step on give these entries one after another, whatever else is called,
and then nothing. They do not use the channel, and no search is held any more once the last entry was given. -/
def StepsThrough (port : ClientPort σ) (d : Desk σ) (entries : List CatalogEntry) : Prop :=
  ∀ calls : List ClientCall, (∀ c ∈ calls, c.letsGo = false) → ∀ query,
    let reached := (d.performAll port calls).2
    let k := calls.countP ClientCall.stepsOn
    ∃ held, reached.perform port (.find query false) =
        (.catalog entries[k]?, { reached with client := { reached.client with held } }) ∧
      (reached.client.held = none ↔ entries.length ≤ k) ∧ (held = none ↔ entries.length ≤ k + 1)

variable {port : ClientPort σ} {d : Desk σ} {left : List CatalogEntry}

theorem Holds.held_eq_none_iff (holds : d.Holds left) : d.client.held = none ↔ left.length = 0 := by
  obtain ⟨truncated, -, held⟩ := holds
  rw [held]
  exact Cursor.rest_eq_none_iff

theorem Holds.find (holds : d.Holds left) (port : ClientPort σ) (query : String) :
    ∃ held, d.perform port (.find query false) = (.catalog left[0]?, { d with client := { d.client with held } }) ∧
      Holds { d with client := { d.client with held } } left.tail := by
  obtain ⟨truncated, fit, held⟩ := holds
  have stepped : Client.findCatalog port query false d.client =
      (.ok left.head?, { d.client with held := Cursor.rest left.tail truncated }) := by
    have same : d.client = { d.client with held := Cursor.rest left truncated } := by rw [← held]
    rw [same]
    exact Client.findCatalog_rest port query fit truncated d.client
  refine ⟨Cursor.rest left.tail truncated, ?_, truncated, fun e there => fit e (List.mem_of_mem_tail there), rfl⟩
  simp only [perform, onClient, stepped, answerOf, List.head?_eq_getElem?]

/-- A call that neither steps on nor lets go leaves alone what is held of a search. -/
theorem held_perform (port : ClientPort σ) (d : Desk σ) {c : ClientCall} (stays : c.letsGo = false)
    (apart : c.stepsOn = false) : (d.perform port c).2.client.held = d.client.held := by
  have onCursor (i : Nat) (action : Cursor → ClientAnswer × Cursor) :
      (d.onCursor i action).2.client.held = d.client.held := by
    unfold Desk.onCursor
    cases d.cursors[i]? <;> rfl
  cases asks : Direct.request? c with
  | some request =>
    obtain ⟨query, rfl, rfl | rfl⟩ | ⟨-, value, exchanged⟩ := perform_cases asks
    · cases stays
    · obtain ⟨found, t, searched, -⟩ := Client.search_cases port query d.client
      simp only [perform, searched]
      cases found <;> rfl
    · obtain ⟨outcome, t, made⟩ := Client.exchange_cases port request d.client
      rw [exchanged]
      simp only [onClient, made]
  | none =>
    cases c with
    | createDatabase | getCatalog | getTrack | addCatalog | addTrack | deleteCatalog | deleteTrack | search => cases asks
    | close => cases stays
    | find query newSearch =>
      cases newSearch with
      | true => cases asks
      | false => cases apart
    | emptyCursor => rfl
    | next | look | collect | take => exact onCursor _ _

theorem Holds.perform (holds : d.Holds left) (port : ClientPort σ) {c : ClientCall} (stays : c.letsGo = false) :
    (d.perform port c).2.Holds (left.drop (if c.stepsOn then 1 else 0)) := by
  by_cases steps : c.stepsOn = true
  · obtain ⟨query, rfl⟩ : ∃ query, c = .find query false := by
      cases c with
      | find query newSearch =>
        cases newSearch with
        | true => cases stays
        | false => exact ⟨query, rfl⟩
      | _ => cases steps
    obtain ⟨held, stepped, later⟩ := holds.find port query
    rw [if_pos steps, List.drop_one, stepped]
    exact later
  · obtain ⟨truncated, fit, held⟩ := holds
    rw [if_neg steps, List.drop_zero]
    exact ⟨truncated, fit, (held_perform port d stays (Bool.eq_false_iff.2 steps)).trans held⟩

theorem Holds.performAll (holds : d.Holds left) (port : ClientPort σ) {calls : List ClientCall}
    (stay : ∀ c ∈ calls, c.letsGo = false) :
    (d.performAll port calls).2.Holds (left.drop (calls.countP ClientCall.stepsOn)) := by
  induction calls generalizing d left with
  | nil => exact holds
  | cons c calls ih =>
    obtain ⟨stays, stay⟩ := List.forall_mem_cons.1 stay
    have later := ih (holds.perform port stays) stay
    rw [List.drop_drop, Nat.add_comm] at later
    rw [List.countP_cons]
    exact later

theorem Holds.stepsThrough (holds : d.Holds left) (port : ClientPort σ) : d.StepsThrough port left := by
  intro calls stay query reached k
  have here : reached.Holds (left.drop k) := holds.performAll port stay
  obtain ⟨held, stepped, there⟩ := here.find port query
  refine ⟨held, ?_, here.held_eq_none_iff.trans ?_, there.held_eq_none_iff.trans ?_⟩
  · rw [stepped, List.getElem?_drop, Nat.add_zero]
  · rw [List.length_drop, Nat.sub_eq_zero_iff_le]
  · rw [List.length_tail, List.length_drop]
    omega

theorem holds_nil (none : d.client.held = none) : d.Holds [] := ⟨.none, by simp, none⟩

/-- The entries of a new search are given by the call that begins it and the calls that step on, one after another, and
nothing after them, whatever else is called until a search is let go of. A new search that fails lets go of the one
before, as closing does, and so do the calls that step on then give nothing. -/
theorem find_steps_through (port : ClientPort σ) (d : Desk σ) (query : String) :
    let searched := Client.search port query { d.client with held := none }
    let made := d.perform port (.find query true)
    (match searched.1 with
      | .ok cursor => ∃ entries held, cursor.Replays entries ∧
        made = (.catalog entries[0]?, { d with client := { searched.2 with held } }) ∧
        (held = none ↔ entries.length ≤ 1) ∧ made.2.StepsThrough port entries.tail
      | .error f => made = (.fault f, { d with client := searched.2 }) ∧ made.2.StepsThrough port []) ∧
    (d.perform port .close).2.StepsThrough port [] := by
  intro searched made
  obtain ⟨found, t, same, cursors⟩ := Client.search_cases port query { d.client with held := none }
  have brings : searched = (found, { d.client with world := t, held := none }) := same
  have given : made = (answerOf .catalog (Client.firstOf found).1,
      { d with client := { d.client with world := t, held := (Client.firstOf found).2 } }) := by
    have stepped := Client.findCatalog_searched same
    simp only [made, perform, onClient, stepped]
  refine ⟨?_, Holds.stepsThrough (holds_nil rfl) port⟩
  rw [given, brings]
  cases found with
  | error f => exact ⟨rfl, Holds.stepsThrough (holds_nil rfl) port⟩
  | ok cursor =>
    obtain ⟨entries, truncated, fit, rfl⟩ := cursors cursor rfl
    have first := Client.firstOf_onto fit truncated
    have fits : ∀ e ∈ entries.tail, e.Encodes := fun e inside => fit e (List.mem_of_mem_tail inside)
    refine ⟨entries, Cursor.rest entries.tail truncated, Cursor.replays_onto fit truncated, ?_, ?_, ?_⟩
    · rw [first]
      rfl
    · rw [Cursor.rest_eq_none_iff, List.length_tail]
      omega
    · rw [first]
      exact Holds.stepsThrough ⟨truncated, fits, rfl⟩ port

end Desk

end DiscCatalog
