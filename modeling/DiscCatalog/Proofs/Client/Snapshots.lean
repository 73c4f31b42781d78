import DiscCatalog.Proofs.Client.Bursts

namespace DiscCatalog

namespace ClientCall

def source? : ClientCall → Option Nat
  | .next i | .collect i | .take i _ => some i
  | _ => none

end ClientCall

namespace ClientAnswer

def given : ClientAnswer → List CatalogEntry
  | .catalog entry => entry.toList
  | .entries found => found
  | _ => []

end ClientAnswer

/-- What happens at a desk: a call, or whatever becomes meanwhile of the channel and of all that is behind it, such as
the server's store. -/
inductive Happening (σ : Type) where
  | call (c : ClientCall)
  | meanwhile (change : σ → σ)

theorem Cursor.next_onto {entries : List CatalogEntry} {truncated : Option String} (fit : ∀ e ∈ entries, e.Encodes) :
    (onto entries truncated).next = (.ok entries.head?, onto entries.tail truncated) := by
  cases entries with
  | nil => rfl
  | cons e rest => exact next_onto_cons (fit e List.mem_cons_self)

namespace Desk

variable {σ : Type}

def happen (port : ClientPort σ) (d : Desk σ) : Happening σ → Desk σ
  | .call c => (d.perform port c).2
  | .meanwhile change => { d with client := { d.client with world := change d.client.world } }

/-- The desk after all that happens at it. -/
def happenAll (port : ClientPort σ) (history : List (Happening σ)) (d : Desk σ) : Desk σ := history.foldl (happen port) d

def takes (port : ClientPort σ) (i : Nat) (d : Desk σ) : Happening σ → List CatalogEntry
  | .call c => if c.source? = some i then (d.perform port c).1.given else []
  | .meanwhile _ => []

def takesAll (port : ClientPort σ) (i : Nat) : List (Happening σ) → Desk σ → List CatalogEntry
  | [], _ => []
  | h :: history, d => d.takes port i h ++ takesAll port i history (d.happen port h)

/-- What cursor `i` shows of itself when these entries are left in it. -/
structure Shows (port : ClientPort σ) (d : Desk σ) (i : Nat) (left : List CatalogEntry) (truncated : Option String) : Prop where
  cursor : ∃ c, d.cursors[i]? = some c ∧ c.remaining = left.length ∧ (c.spool.isSome ↔ 0 < c.remaining) ∧
    c.truncated = truncated
  next : (d.perform port (.next i)).1 = .catalog left.head?
  take : ∀ count, (d.perform port (.take i count)).1 = .entries (left.take count)
  collect : (d.perform port (.collect i)).1 = .entries left

variable {port : ClientPort σ} {d : Desk σ} {i : Nat} {left : List CatalogEntry} {truncated : Option String}

theorem onCursor_of_some {c : Cursor} (there : d.cursors[i]? = some c) (f : Cursor → ClientAnswer × Cursor) :
    d.onCursor i f = ((f c).1, { d with cursors := d.cursors.set i (f c).2 }) := by
  simp only [onCursor, there]

theorem cursors_onCursor {j : Nat} (other : j ≠ i) (f : Cursor → ClientAnswer × Cursor) :
    (d.onCursor j f).2.cursors[i]? = d.cursors[i]? := by
  cases there : d.cursors[j]? with
  | none => simp only [onCursor, there]
  | some c => rw [onCursor_of_some there, List.getElem?_set_ne other]

section Left

variable (there : d.cursors[i]? = some (.onto left truncated)) (fit : ∀ e ∈ left, e.Encodes)

include there fit

theorem perform_next (port : ClientPort σ) : d.perform port (.next i) =
    (.catalog left.head?, { d with cursors := d.cursors.set i (.onto left.tail truncated) }) := by
  simp only [perform, onCursor_of_some there, Cursor.next_onto fit, answerOf]

theorem perform_take (port : ClientPort σ) (count : Nat) : d.perform port (.take i count) =
    (.entries (left.take count), { d with cursors := d.cursors.set i (.onto (left.drop count) truncated) }) := by
  simp only [perform, onCursor_of_some there, Cursor.take_onto fit, answerOf]

theorem perform_collect (port : ClientPort σ) : d.perform port (.collect i) =
    (.entries left, { d with cursors := d.cursors.set i (.onto [] truncated) }) := by
  simp only [perform, onCursor_of_some there, Cursor.collect_onto fit, answerOf]

theorem shows_of_onto (port : ClientPort σ) : d.Shows port i left truncated where
  cursor := by
    refine ⟨_, there, rfl, ?_, rfl⟩
    cases left <;> simp [Cursor.onto]
  next := by rw [perform_next there fit]
  take count := by rw [perform_take there fit]
  collect := by rw [perform_collect there fit]

/-- A call that takes from a cursor is given the first of the entries that are left in it, which are then gone. -/
theorem perform_source (port : ClientPort σ) {c : ClientCall} (source : c.source? = some i) :
    ∃ n, (d.perform port c).1.given = left.take n ∧
      (d.perform port c).2.cursors[i]? = some (.onto (left.drop n) truncated) := by
  have inside : i < d.cursors.length := (List.getElem?_eq_some_iff.1 there).1
  cases c with
  | next j =>
    cases source
    rw [perform_next there fit]
    exact ⟨1, List.take_one.symm, by rw [List.drop_one]; exact List.getElem?_set_self inside⟩
  | take j count =>
    cases source
    rw [perform_take there fit]
    exact ⟨count, rfl, List.getElem?_set_self inside⟩
  | collect j =>
    cases source
    rw [perform_collect there fit]
    exact ⟨left.length, List.take_length.symm, by rw [List.drop_length]; exact List.getElem?_set_self inside⟩
  | _ => cases source

end Left

theorem cursors_perform (port : ClientPort σ) {c : ClientCall} (other : c.source? ≠ some i) (inside : i < d.cursors.length) :
    (d.perform port c).2.cursors[i]? = d.cursors[i]? := by
  have apart {j : Nat} (source : c.source? = some j) : j ≠ i := fun same => other (same ▸ source)
  cases c with
  | createDatabase | getCatalog | getTrack | addCatalog | addTrack | deleteCatalog | deleteTrack | find | close => rfl
  | search query =>
    rw [perform]
    split
    · exact List.getElem?_append_left inside
    · rfl
  | emptyCursor => exact List.getElem?_append_left inside
  | next | take | collect => exact cursors_onCursor (apart rfl) _
  | look j =>
    by_cases same : j = i
    · subst same
      have there := List.getElem?_eq_getElem inside
      rw [perform, onCursor_of_some there, there, List.getElem?_set_self inside]
    · exact cursors_onCursor same _

/-- Of the entries that are left in a cursor the first ones are taken by what happens, and the others stay. -/
theorem left_happen (there : d.cursors[i]? = some (.onto left truncated)) (fit : ∀ e ∈ left, e.Encodes) (port : ClientPort σ)
    (h : Happening σ) :
    ∃ n, d.takes port i h = left.take n ∧ (d.happen port h).cursors[i]? = some (.onto (left.drop n) truncated) := by
  have inside : i < d.cursors.length := (List.getElem?_eq_some_iff.1 there).1
  cases h with
  | meanwhile change => exact ⟨0, rfl, there⟩
  | call c =>
    by_cases source : c.source? = some i
    · obtain ⟨n, given, rest⟩ := perform_source there fit port source
      exact ⟨n, by rw [takes, if_pos source, given], rest⟩
    · exact ⟨0, by rw [takes, if_neg source]; rfl, (cursors_perform port source inside).trans there⟩

theorem left_happenAll (there : d.cursors[i]? = some (.onto left truncated)) (fit : ∀ e ∈ left, e.Encodes)
    (port : ClientPort σ) (history : List (Happening σ)) :
    ∃ rest, d.takesAll port i history ++ rest = left ∧
      (d.happenAll port history).cursors[i]? = some (.onto rest truncated) := by
  induction history generalizing d left with
  | nil => exact ⟨left, rfl, there⟩
  | cons h history ih =>
    obtain ⟨n, taken, there⟩ := left_happen there fit port h
    obtain ⟨rest, all, there⟩ := ih there fun e inside => fit e (List.mem_of_mem_drop inside)
    refine ⟨rest, ?_, there⟩
    rw [takesAll, List.append_assoc, all, taken, List.take_append_drop]

/-- A cursor stands for what its own search was brought. Whatever happens after the search, be it calls on the client and
on this cursor and others, further searches, a close or changes at the server, the entries that were taken from the cursor
and those that it has left are the ones of its search in their order. It counts those that are left, keeps its spool as
long as there are any, gives them to whoever asks next and nothing after them, and what it says of a search cut short
stays. -/
theorem cursor_stands (port : ClientPort σ) {d d' : Desk σ} {query : String} {c : Cursor}
    (found : d.perform port (.search query) = (.cursor c, d')) :
    ∃ entries, Client.Burst port query d.client.world entries c.truncated ∧
      ∀ history : List (Happening σ), ∃ left, d'.takesAll port d.cursors.length history ++ left = entries ∧
        (d'.happenAll port history).Shows port d.cursors.length left c.truncated := by
  rw [perform] at found
  split at found
  · next cursor client searched =>
    cases found
    obtain ⟨entries, burst, fit, onto⟩ := Client.search_eq_ok searched
    refine ⟨entries, burst, fun history => ?_⟩
    have there : (d.cursors ++ [c])[d.cursors.length]? = some (.onto entries c.truncated) := by
      rw [List.getElem?_append_right (Nat.le_refl _), Nat.sub_self, ← onto]
      rfl
    obtain ⟨left, all, there⟩ := left_happenAll (d := { client, cursors := d.cursors ++ [c] }) there fit port history
    have fits : ∀ e ∈ left, e.Encodes := fun e inside => fit e (all ▸ List.mem_append_right _ inside)
    exact ⟨left, all, shows_of_onto there fits port⟩
  · cases found

/-- Two searches one after the other, the first of which is cut short. Both cursors are read in turn, the client is closed
in between, and entry by entry the first cursor gives what it was brought. -/
theorem cursor_stands_interleaved :
    let found (key : String) : Message := { operation := .findCatalog, catalog := .ofKey key }
    let last (status : Status) (diagnostic : String) : Message := { operation := .findCatalog, status, diagnostic }
    let later : List (Except ChannelFault Message) := [.ok (found "CD9"), .ok (last .noMoreResults "")]
    let replies := .ok (found "CD1") :: .ok (found "CD2") :: .ok (last .failed "disk full") :: later
    let d : Desk ClientScript := { client := { world := { origin := 7, replies } } }
    let history : List (Happening ClientScript) := [.call (.search "CD9"), .call (.next 0), .call (.collect 1),
      .meanwhile fun s => { s with replies := [] }, .call .close, .call (.next 0), .call (.next 0)]
    ∃ c d', d.perform ClientScript.port (.search "CD") = (.cursor c, d') ∧
      ∃ entries, Client.Burst ClientScript.port "CD" d.client.world entries c.truncated ∧
        ∃ left, d'.takesAll ClientScript.port 0 history ++ left = entries ∧
          (d'.happenAll ClientScript.port history).Shows ClientScript.port 0 left c.truncated := by
  intro found last later replies d history
  let asked := Message.ofRequest 7 (.findCatalog "CD")
  let begun : ClientScript := { origin := 7, replies, sent := [asked], begun := 1 }
  have taken : ClientScript.port.send asked d.client.world = (.ok (), { origin := 7, replies, sent := [asked] }) := by
    have fits : (Request.findCatalog "CD").misfit? = none := by decide
    have encoded := Message.encode_of_encodes (Message.encodes_ofRequest 7 fits)
    simp only [d, ClientScript.port, ClientScript.send, asked, encoded]
    rfl
  have fits (key : String) (short : Slot.catalog.Fits key) : (CatalogEntry.ofKey key).Encodes :=
    CatalogEntry.encodes_ofKey.2 short
  have first : Client.drain ClientScript.port asked none 6 (.holding []) begun =
      Client.drain ClientScript.port asked none 5 (.holding [.ofKey "CD1"]) { begun with replies := replies.drop 1 } :=
    Client.drain_entry (r := found "CD1") [] rfl rfl rfl (fits "CD1" (by decide))
  have second : Client.drain ClientScript.port asked none 5 (.holding [.ofKey "CD1"]) { begun with replies := replies.drop 1 } =
      Client.drain ClientScript.port asked none 4 (.holding [.ofKey "CD1", .ofKey "CD2"])
        { begun with replies := replies.drop 2 } :=
    Client.drain_entry (r := found "CD2") [.ofKey "CD1"] rfl rfl rfl (fits "CD2" (by decide))
  have ended : Client.drain ClientScript.port asked none 4 (.holding [.ofKey "CD1", .ofKey "CD2"])
        { begun with replies := replies.drop 2 } =
      ((.ok (some "disk full"), .holding [.ofKey "CD1", .ofKey "CD2"]), { begun with replies := later }) :=
    Client.drain_cutShort (r := last .failed "disk full") rfl rfl rfl
  have searched : Client.search ClientScript.port "CD" d.client =
      (.ok (.onto [.ofKey "CD1", .ofKey "CD2"] (some "disk full")),
        { world := ClientScript.port.replyEnd { begun with replies := later } }) :=
    Client.search_begun (c := d.client) taken rfl (first.trans (second.trans ended))
  have given : d.perform ClientScript.port (.search "CD") =
      (.cursor (.onto [.ofKey "CD1", .ofKey "CD2"] (some "disk full")),
        { client := { world := ClientScript.port.replyEnd { begun with replies := later } },
          cursors := [.onto [.ofKey "CD1", .ofKey "CD2"] (some "disk full")] }) := by
    simp only [perform, searched]
    rfl
  obtain ⟨entries, burst, stands⟩ := cursor_stands ClientScript.port given
  exact ⟨_, _, given, entries, burst, stands history⟩

end Desk

end DiscCatalog
