import DiscCatalog.Proofs.Session.Direct
import DiscCatalog.Proofs.Session.Steps
import Mathlib.Data.List.Forall2

namespace DiscCatalog

section Entries

variable {α β : Type} {R : α → β → Prop} {l : List (String × α)} {m : List (String × β)}

def Named (R : α → β → Prop) : List (String × α) → List (String × β) → Prop :=
  List.Forall₂ fun a b => a.1 = b.1 ∧ R a.2 b.2

theorem Named.lookup (h : Named R l m) (name : String) :
    (l.lookup name = none ∧ m.lookup name = none)
      ∨ ∃ x y, l.lookup name = some x ∧ m.lookup name = some y ∧ R x y := by
  induction h with
  | nil => exact .inl ⟨rfl, rfl⟩
  | @cons a b l m first rest ih =>
    obtain ⟨k, x⟩ := a
    obtain ⟨k', y⟩ := b
    obtain ⟨same, related⟩ := first
    cases same
    rw [List.lookup_cons, List.lookup_cons]
    cases name == k with
    | true => exact .inr ⟨x, y, rfl, rfl, related⟩
    | false => exact ih

theorem Named.unassign (h : Named R l m) (name : String) : Named R (unassign name l) (unassign name m) := by
  induction h with
  | nil => exact .nil
  | @cons a b l m first rest ih =>
    unfold DiscCatalog.unassign at ih ⊢
    by_cases other : b.1 = name
    · have other' : a.1 = name := first.1.trans other
      rw [List.filter_cons_of_neg (by simpa using other'), List.filter_cons_of_neg (by simpa using other)]
      exact ih
    · have other' : ¬ a.1 = name := fun h => other (first.1.symm.trans h)
      rw [List.filter_cons_of_pos (by simpa using other'), List.filter_cons_of_pos (by simpa using other)]
      exact .cons first ih

theorem Named.assign (h : Named R l m) (name : String) {a : α} {b : β} (related : R a b) :
    Named R (assign name a l) (assign name b m) := .cons ⟨rfl, related⟩ (h.unassign name)

end Entries

namespace Direct

variable {host : Host} {boxes : Mailboxes} {tables : Store} {origin : UInt32} {f : Finds}

theorem encodes_of_fits {request : Request} {c : Change} (asks : Server.changeOf request = some c)
    (fits : request.misfit? = none) : c.Encodes := by
  have texts := Slot.firstMisfit?_eq_none_iff.1 fits
  cases request with
  | addCatalog e =>
    cases asks
    exact CatalogEntry.encodes_iff.2 texts
  | addTrack e =>
    cases asks
    exact TrackEntry.encodes_iff.2 texts
  | createDatabase | deleteCatalog | deleteTrack =>
    cases asks
    trivial
  | getCatalog | getTrack | findCatalog => cases asks

theorem encodes_onSearch {i : Nat} {take : List CatalogEntry → Outcome × List CatalogEntry}
    (rows : tables.Encodes) (encode : f.Encodes) (part : ∀ found, ∀ e ∈ (take found).2, e ∈ found) :
    (onSearch i take f tables).2.2.Encodes ∧ (onSearch i take f tables).2.1.Encodes := by
  unfold onSearch
  cases there : f.searches[i]? with
  | none => exact ⟨rows, encode⟩
  | some entries =>
    refine ⟨rows, encode.stepping, fun found hf e he => ?_⟩
    obtain hf | rfl := List.mem_or_eq_of_mem_set hf
    · exact encode.searches found hf e he
    · exact encode.searches entries (List.mem_of_getElem? there) e (part entries e he)

theorem encodes_perform (rows : tables.Encodes) (encode : f.Encodes) (c : ClientCall)
    (fits : ∀ r, request? c = some r → r.misfit? = none) :
    (perform c f tables).2.2.Encodes ∧ (perform c f tables).2.1.Encodes := by
  cases c with
  | createDatabase | addCatalog | addTrack | deleteCatalog | deleteTrack =>
    exact ⟨rows.change (encodes_of_fits rfl (fits _ rfl)), encode⟩
  | getCatalog | getTrack => exact ⟨rows, encode⟩
  | find query newSearch =>
    cases newSearch with
    | true => exact ⟨rows, fun e he => rows.matching query e (List.mem_of_mem_tail he), encode.searches⟩
    | false => exact ⟨rows, fun e he => encode.stepping e (List.mem_of_mem_tail he), encode.searches⟩
  | close => exact ⟨rows, by simp [perform], encode.searches⟩
  | search query =>
    refine ⟨rows, encode.stepping, fun found hf e he => ?_⟩
    obtain hf | hf := List.mem_append.1 hf
    · exact encode.searches found hf e he
    · rw [List.mem_singleton.1 hf] at he
      exact rows.matching query e he
  | emptyCursor =>
    refine ⟨rows, encode.stepping, fun found hf e he => ?_⟩
    obtain hf | hf := List.mem_append.1 hf
    · exact encode.searches found hf e he
    · rw [List.mem_singleton.1 hf] at he
      cases he
  | next i => exact encodes_onSearch rows encode fun found e he => List.mem_of_mem_tail he
  | look i => exact encodes_onSearch rows encode fun found e he => he
  | collect i => exact encodes_onSearch rows encode fun found e he => absurd he List.not_mem_nil
  | take i count => exact encodes_onSearch rows encode fun found e he => List.mem_of_mem_drop he

theorem keysHold_perform (keys : tables.KeysHold) (c : ClientCall) : (perform c f tables).2.2.KeysHold := by
  have same : ∀ i take, (onSearch i take f tables).2.2 = tables := by
    intro i take
    unfold onSearch
    cases f.searches[i]? <;> rfl
  cases c with
  | createDatabase | addCatalog | addTrack | deleteCatalog | deleteTrack => exact keys.change _
  | getCatalog | getTrack | close | search | emptyCursor => exact keys
  | find query newSearch => cases newSearch <;> exact keys
  | next | look | collect | take => exact (same _ _).symm ▸ keys

structure Sound (tables : Store) (f : Finds) : Prop where
  keys : tables.KeysHold
  rows : tables.Encodes
  finds : f.Encodes

theorem Sound.call (h : Sound tables f) (c : ClientCall) :
    Sound (Direct.call c f tables).2.2 (Direct.call c f tables).2.1 := by
  have kept : (unsent c f).Encodes := by
    unfold unsent
    split
    · exact ⟨by simp, h.finds.searches⟩
    · exact h.finds
  have performed (fits : ∀ r, request? c = some r → r.misfit? = none) :
      Sound (perform c f tables).2.2 (perform c f tables).2.1 :=
    ⟨keysHold_perform h.keys c, (encodes_perform h.rows h.finds c fits).1, (encodes_perform h.rows h.finds c fits).2⟩
  unfold Direct.call
  cases asks : request? c with
  | none => exact performed fun r hr => by rw [asks] at hr; cases hr
  | some request =>
    by_cases closed : f.closed = true
    · simp only [closed, ↓reduceIte]
      exact ⟨h.keys, h.rows, kept⟩
    · simp only [closed, Bool.false_eq_true, ↓reduceIte]
      cases misfit : request.misfit? with
      | some fault => exact ⟨h.keys, h.rows, kept⟩
      | none =>
        refine performed fun r hr => ?_
        rw [asks] at hr
        cases hr
        exact misfit

def Finds.member (origin : UInt32) (f : Finds) : Member LoopClient where
  connection := ⟨origin, f.closed⟩
  held := Cursor.stepping f.stepping
  cursors := f.searches.map (Cursor.onto · none)

structure Mirrors (host : Host) (boxes : Mailboxes) (s : Session LoopServer LoopClient) (d : Direct) : Prop where
  keys : d.tables.KeysHold
  rows : d.tables.Encodes
  hall : ∃ scan handled, s.hall = Hall.overLoop host boxes { d.tables with scan } handled {}
  members : Named (fun m f => (∃ origin, m = Finds.member origin f) ∧ f.Encodes) s.members d.clients

theorem perform_scan (c : ClientCall) (f : Finds) (s : Store) (scan : Scan) :
    ∃ scan', perform c f { s with scan } =
      ((perform c f s).1, (perform c f s).2.1, { (perform c f s).2.2 with scan := scan' }) := by
  have searched : ∀ i take, ∃ scan', onSearch i take f { s with scan } =
      ((onSearch i take f s).1, (onSearch i take f s).2.1, { (onSearch i take f s).2.2 with scan := scan' }) := by
    intro i take
    unfold onSearch
    cases f.searches[i]? <;> exact ⟨scan, rfl⟩
  have changed : ∀ c, ∃ scan', change c f { s with scan } =
      ((change c f s).1, (change c f s).2.1, { (change c f s).2.2 with scan := scan' }) := by
    intro c
    obtain ⟨scan', same⟩ := Store.memory_change_scan c s scan
    exact ⟨scan', by rw [change, same]; rfl⟩
  cases c with
  | createDatabase | addCatalog | addTrack | deleteCatalog | deleteTrack => exact changed _
  | getCatalog | getTrack | close | search | emptyCursor => exact ⟨scan, rfl⟩
  | find query newSearch => cases newSearch <;> exact ⟨scan, rfl⟩
  | next | look | collect | take => exact searched _ _

theorem call_scan (c : ClientCall) (f : Finds) (s : Store) (scan : Scan) :
    ∃ scan', call c f { s with scan } =
      ((call c f s).1, (call c f s).2.1, { (call c f s).2.2 with scan := scan' }) := by
  unfold call
  cases request? c with
  | none => exact perform_scan c f s scan
  | some request =>
    by_cases closed : f.closed = true
    · simp only [closed, ↓reduceIte]
      exact ⟨scan, rfl⟩
    · simp only [closed, Bool.false_eq_true, ↓reduceIte]
      cases request.misfit? with
      | some fault => exact ⟨scan, rfl⟩
      | none => exact perform_scan c f s scan

def serving (host : Host) (boxes : Mailboxes) (tables : Store) (handled : Nat)
    (members : List (String × Member LoopClient)) : Session LoopServer LoopClient where
  hall := Hall.overLoop host boxes tables handled {}
  members := members

variable {handled : Nat} {members : List (String × Member LoopClient)}

theorem release_serving (old : Option (Member LoopClient)) :
    Session.release Hall.loop old (Hall.overLoop host boxes tables handled {}) =
      Hall.overLoop host boxes tables handled {} := by
  cases old <;> rfl

theorem advance_openClient (name : String) (origin : UInt32) :
    (serving host boxes tables handled members).advance Hall.loop none (.openClient name origin) =
      (.opened (.ok origin), serving host boxes tables handled (assign name (Finds.member origin {}) members)) := by
  have opened : Hall.machinePart.lift (Hall.loop.openClient origin)
      (serving host boxes tables handled members).hall =
      (.ok ⟨origin, false⟩, Hall.overLoop host boxes tables handled {}) := rfl
  rw [Session.advance_opened opened, release_serving]
  rfl

theorem advance_drop (name : String) :
    (serving host boxes tables handled members).advance Hall.loop none (.drop name) =
      (.dropped (members.lookup name).isSome, serving host boxes tables handled (unassign name members)) := by
  have released : Session.release Hall.loop (members.lookup name) (Hall.overLoop host boxes tables handled {}) =
      Hall.overLoop host boxes tables handled {} := release_serving _
  rw [Session.advance_dropped]
  simp only [serving, released]
  rfl

theorem advance_noClient {name : String} (c : ClientCall) (h : members.lookup name = none) :
    (serving host boxes tables handled members).advance Hall.loop none (.call name c) =
      (.noClient, serving host boxes tables handled members) := Session.advance_absent h c

theorem advance_call (host : Host) (boxes : Mailboxes) (handled : Nat) {name : String} (c : ClientCall) (sound : Sound tables f)
    (h : members.lookup name = some (f.member origin)) :
    ∃ answer scan handled', (serving host boxes tables handled members).advance Hall.loop none (.call name c) =
        (.answered answer, serving host boxes { (call c f tables).2.2 with scan } handled'
          (assign name ((call c f tables).2.1.member origin) members)) ∧
      Shows (.answered answer) (call c f tables).1 := by
  have agreed : Agrees host boxes origin
      ((f.desk host boxes tables handled origin).perform (Hall.clientPort Hall.loop) c) (call c f tables) :=
    agrees_call sound.keys sound.rows sound.finds c
  obtain ⟨answer, scan, handled', made, shown⟩ := agreed
  refine ⟨answer, scan, handled', ?_, shown⟩
  have called : Session.callAs Hall.loop none (f.member origin) c (Hall.overLoop host boxes tables handled {}) =
      (answer, (call c f tables).2.1.member origin,
        Hall.overLoop host boxes { (call c f tables).2.2 with scan } handled' {}) := by
    have desk : Desk.perform (Hall.clientPort Hall.loop) c
        { client := { world := ((f.member origin).connection, Hall.overLoop host boxes tables handled {}),
                      held := (f.member origin).held },
          cursors := (f.member origin).cursors } = _ := made
    unfold Session.callAs
    simp only [desk]
    rfl
  have advanced : (serving host boxes tables handled members).advance Hall.loop none (.call name c) = _ :=
    Session.advance_called h called
  rw [advanced]
  rfl

/-- One step of a session gives what it comes to on the store itself, and so on from there. -/
theorem Mirrors.advance {s : Session LoopServer LoopClient} {d : Direct} (h : Mirrors host boxes s d) (step : Step) :
    Shows (s.advance Hall.loop none step.proxied).1 (d.step step).1 ∧
      Mirrors host boxes (s.advance Hall.loop none step.proxied).2 (d.step step).2 := by
  obtain ⟨keys, rows, ⟨scan, handled, hall⟩, related⟩ := h
  obtain ⟨_, members⟩ := s
  subst hall
  replace related : Named _ members d.clients := related
  change Shows ((serving host boxes { d.tables with scan } handled members).advance Hall.loop none step.proxied).1
      (d.step step).1 ∧ Mirrors host boxes
      ((serving host boxes { d.tables with scan } handled members).advance Hall.loop none step.proxied).2 (d.step step).2
  cases step with
  | openClient name origin =>
    have fresh : Finds.Encodes {} := ⟨by simp, by simp⟩
    rw [Step.proxied, advance_openClient]
    exact ⟨.opened origin, keys, rows, ⟨scan, handled, rfl⟩, related.assign name ⟨⟨origin, rfl⟩, fresh⟩⟩
  | drop name =>
    have existed : (members.lookup name).isSome = (d.clients.lookup name).isSome := by
      obtain ⟨absent, gone⟩ | ⟨m, f, present, there, -⟩ := related.lookup name
      · rw [absent, gone]
        rfl
      · rw [present, there]
        rfl
    rw [Step.proxied, advance_drop, existed]
    exact ⟨.dropped _, keys, rows, ⟨scan, handled, rfl⟩, related.unassign name⟩
  | call name c =>
    rw [Step.proxied, Direct.step]
    obtain ⟨absent, gone⟩ | ⟨_, f, present, there, ⟨origin, rfl⟩, encode⟩ := related.lookup name
    · rw [gone, advance_noClient c absent]
      exact ⟨.noClient, keys, rows, ⟨scan, handled, rfl⟩, related⟩
    · obtain ⟨scan', same⟩ := call_scan c f d.tables scan
      have sound : Sound d.tables f := ⟨keys, rows, encode⟩
      have scanned : Sound { d.tables with scan } f :=
        ⟨⟨keys.catalogs, keys.tracks⟩, ⟨rows.catalogs, rows.tracks⟩, encode⟩
      obtain ⟨answer, scan'', handled', advanced, shown⟩ := advance_call host boxes handled c scanned present
      rw [same] at advanced shown
      rw [there, advanced]
      have after := sound.call c
      exact ⟨shown, after.keys, after.rows, ⟨scan'', handled', rfl⟩,
        related.assign name ⟨⟨origin, rfl⟩, after.finds⟩⟩

theorem Mirrors.run {s : Session LoopServer LoopClient} {d : Direct} (h : Mirrors host boxes s d)
    (steps : List Step) :
    List.Forall₂ Shows (s.run Hall.loop none (steps.map Step.proxied)).1 (d.run steps).1 ∧
      Mirrors host boxes (s.run Hall.loop none (steps.map Step.proxied)).2 (d.run steps).2 := by
  induction steps generalizing s d with
  | nil => exact ⟨.nil, h⟩
  | cons step steps ih =>
    obtain ⟨shown, next⟩ := h.advance step
    obtain ⟨later, last⟩ := ih next
    exact ⟨.cons shown later, last⟩

/-- Clients beside a server whose store is any store in memory with rows that frames can carry are given,
call by call, what the calls come to on that store itself. -/
theorem session_shows (history : List StoreCall) (host : Host) (boxes : Mailboxes) (steps : List Step)
    (rows : (RecordStore.memory.performAll history {}).Encodes) :
    ∃ hall, (Hall.start Hall.loop (.memory (RecordStore.memory.performAll history {})) { host, boxes }).1 = .ok hall ∧
      List.Forall₂ Shows (Session.run Hall.loop none { hall } (steps.map Step.proxied)).1
        (run { tables := RecordStore.memory.performAll history {} } steps).1 ∧
      ∃ scan, (Session.run Hall.loop none { hall } (steps.map Step.proxied)).2.hall.service.world.repository =
        .memory { (run { tables := RecordStore.memory.performAll history {} } steps).2.tables with scan } := by
  have keys := Store.keysHold_performAll history Store.keysHold_empty
  generalize RecordStore.memory.performAll history {} = tables at keys rows
  have mirrors : Mirrors host boxes (serving host boxes tables 0 []) { tables } :=
    ⟨keys, rows, ⟨tables.scan, 0, rfl⟩, .nil⟩
  obtain ⟨shown, last⟩ := mirrors.run steps
  refine ⟨Hall.overLoop host boxes tables 0 {}, rfl, shown, ?_⟩
  obtain ⟨scan, handled, hall⟩ := last.hall
  have there : (Session.run Hall.loop none ⟨Hall.overLoop host boxes tables 0 {}, []⟩ (steps.map Step.proxied)).2.hall =
      Hall.overLoop host boxes { (run { tables } steps).2.tables with scan } handled {} := hall
  exact ⟨scan, by rw [there]; rfl⟩

/-- Two clients of one origin: one searches while the other takes the only match away, and is told at the
end that it is not there. -/
theorem session_shows_interleaved :
    let history := [StoreCall.change (.putCatalog { catalog := "CD1", title := "Blue" })]
    let steps : List Step := [.openClient "a" 7, .openClient "b" 7, .call "a" (.search "CD"),
      .call "b" (.deleteCatalog "CD1"), .call "a" (.collect 0), .call "a" (.deleteCatalog "CD1")]
    (RecordStore.memory.performAll history {}).Encodes ∧
      ∃ hall, (Hall.start Hall.loop (.memory (RecordStore.memory.performAll history {}))
          { host := Host.fresh [] }).1 = .ok hall ∧
        List.Forall₂ Shows (Session.run Hall.loop none { hall } (steps.map Step.proxied)).1
          (run { tables := RecordStore.memory.performAll history {} } steps).1 ∧
        ∃ scan, (Session.run Hall.loop none { hall } (steps.map Step.proxied)).2.hall.service.world.repository =
          .memory { (run { tables := RecordStore.memory.performAll history {} } steps).2.tables with scan } := by
  intro history steps
  have rows : (RecordStore.memory.performAll history {}).Encodes := by
    refine Store.encodes_empty.change (c := .putCatalog { catalog := "CD1", title := "Blue" }) ?_
    exact CatalogEntry.encodes_iff.2 (by decide)
  exact ⟨rows, session_shows history (Host.fresh []) {} steps rows⟩

end Direct

end DiscCatalog
