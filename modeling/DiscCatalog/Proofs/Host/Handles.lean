import DiscCatalog.Host.Tree
import DiscCatalog.Proofs.Host.Changes

namespace DiscCatalog

namespace Host

variable {h h' h'' : Host} {path : String} {place q : Location} {i j n : Nat} {x y : Handle} {access : Access}

section Handles

theorem mem_handlesOf : x ∈ h.handlesOf n ↔ ∃ i, h.handle? i = some x ∧ x.node = n := by
  simp only [handlesOf, List.mem_filterMap, Option.filter_eq_some_iff, decide_eq_true_eq]
  constructor
  · rintro ⟨slot, inside, rfl, there⟩
    obtain ⟨i, at?⟩ := List.mem_iff_getElem?.1 inside
    exact ⟨i, by rw [handle?, at?]; rfl, there⟩
  · rintro ⟨i, held, there⟩
    exact ⟨some x, List.mem_of_getElem? (Option.join_eq_some_iff.1 held), rfl, there⟩

theorem hasReader_iff : h.hasReader n = true ↔ ∃ i x, h.handle? i = some x ∧ x.node = n ∧ x.access = .read := by
  simp only [hasReader, List.any_eq_true, mem_handlesOf, decide_eq_true_eq]
  exact ⟨fun ⟨x, ⟨i, held, there⟩, reads⟩ => ⟨i, x, held, there, reads⟩,
    fun ⟨i, x, held, there, reads⟩ => ⟨x, ⟨i, held, there⟩, reads⟩⟩

theorem hasWriter_iff : h.hasWriter n = true ↔ ∃ i x, h.handle? i = some x ∧ x.node = n ∧ x.access = .write := by
  simp only [hasWriter, List.any_eq_true, mem_handlesOf, decide_eq_true_eq]
  exact ⟨fun ⟨x, ⟨i, held, there⟩, writes⟩ => ⟨i, x, held, there, writes⟩,
    fun ⟨i, x, held, there, writes⟩ => ⟨x, ⟨i, held, there⟩, writes⟩⟩

theorem lt_of_handle? (held : h.handle? i = some x) : i < h.handles.length :=
  (List.getElem?_eq_some_iff.1 (Option.join_eq_some_iff.1 held)).1

theorem handle?_adding_iff {added : Option Handle} :
    (h.adding added).handle? i = some x ↔ h.handle? i = some x ∨ i = h.handles.length ∧ added = some x := by
  refine ⟨handle?_adding_of_some, ?_⟩
  rintro (held | ⟨rfl, rfl⟩)
  · rw [handle?, adding, List.getElem?_append_left (lt_of_handle? held)]
    exact held
  · exact handle?_adding _

theorem handle?_setHandle (held : h.handle? i = some y) :
    (h.setHandle i x).handle? j = if j = i then some x else h.handle? j := by
  rw [handle?, setHandle, List.getElem?_set]
  by_cases same : i = j
  · subst same
    rw [if_pos rfl, if_pos (lt_of_handle? held), if_pos rfl]
    rfl
  · rw [if_neg same, if_neg (Ne.symm same)]
    rfl

theorem close_of_none (gone : h.handle? i = none) : h.close i = h := by
  unfold close
  rw [gone]

/-- Closing a handle does nothing else, unless it is the last one of a pipe, which is empty then. -/
theorem close_eq (held : h.handle? i = some x) :
    h.close i = h.removing i ∨
      (∀ j y, j ≠ i → h.handle? j = some y → y.node ≠ x.node) ∧ (∃ b, h.contentOf? x.node = some (.pipe b)) ∧
        h.close i = (h.removing i).setContent x.node (.pipe {}) := by
  unfold close
  rw [held]
  dsimp only
  split
  · next b pipe =>
    split
    · next alone =>
      refine .inr ⟨fun j y other found there => ?_, ⟨b, pipe⟩, rfl⟩
      have inside : y ∈ (h.removing i).handlesOf x.node :=
        mem_handlesOf.2 ⟨j, by rw [handle?_removing, if_neg other, found], there⟩
      rw [removing, List.isEmpty_iff.1 alone] at inside
      cases inside
    · exact .inl rfl
  · exact .inl rfl

theorem close_adding_of_node (same : x.node = y.node) :
    (h.adding (some x)).close h.handles.length = (h.adding (some y)).close h.handles.length := by
  have gap : ∀ z, (h.handles ++ [some z]).set h.handles.length none = h.handles ++ [none] := by simp
  unfold close
  rw [handle?_adding, handle?_adding]
  simp only [adding, gap, same]

theorem handle?_close : (h.close i).handle? j = if j = i then none else h.handle? j := by
  cases held : h.handle? i with
  | none =>
    rw [close_of_none held]
    by_cases same : j = i
    · rw [if_pos same, same, held]
    · rw [if_neg same]
  | some x =>
    obtain same | ⟨-, -, same⟩ := close_eq held
    · rw [same, handle?_removing]
    · rw [same]
      exact handle?_removing

theorem handle?_of_close (found : (h.close i).handle? j = some x) : h.handle? j = some x ∧ j ≠ i := by
  rw [handle?_close] at found
  split at found
  · cases found
  · next other => exact ⟨found, other⟩

end Handles

structure Later (h h' : Host) : Prop where
  directory : h'.directory = h.directory
  retains : h'.Retains h
  many : h.handles.length ≤ h'.handles.length
  held : ∀ {i x}, i < h.handles.length → h'.handle? i = some x →
    ∃ y, h.handle? i = some y ∧ y.node = x.node ∧ y.access = x.access
  sound : h'.Sound

namespace Later

theorem refl (sound : h.Sound) : Later h h :=
  ⟨rfl, fun _ _ _ found => found, Nat.le_refl _, fun _ held => ⟨_, held, rfl, rfl⟩, sound⟩

theorem trans (first : Later h h') (second : Later h' h'') : Later h h'' where
  directory := second.directory.trans first.directory
  retains place content kind found := first.retains place content kind (second.retains place content kind found)
  many := Nat.le_trans first.many second.many
  held old found := by
    obtain ⟨y, found, node, access⟩ := second.held (Nat.lt_of_lt_of_le old first.many) found
    obtain ⟨z, found, node', access'⟩ := first.held old found
    exact ⟨z, found, node'.trans node, access'.trans access⟩
  sound := second.sound

theorem enter (later : Later h h') {directory : String} {way : Location × Nat}
    (entered : h'.enter directory = .ok way) : h.enter directory = .ok way :=
  enter_retained later.retains later.directory.symm entered

theorem noLink (later : Later h h') (noLink : ∀ target, h.content? place ≠ some (.link target)) (target : String) :
    h'.content? place ≠ some (.link target) :=
  fun found => noLink target (later.retains _ _ (.inr ⟨target, rfl⟩) found)

end Later

def Took (h : Host) (i : Nat) (use : Nat → Access → Prop) : Prop :=
  i < h.handles.length ∧ ∀ x, h.handle? i = some x → use x.node x.access

theorem Took.later {use : Nat → Access → Prop} (took : h.Took i use) (later : Later h h') : h'.Took i use := by
  refine ⟨Nat.lt_of_lt_of_le took.1 later.many, fun x found => ?_⟩
  obtain ⟨y, found, node, access⟩ := later.held took.1 found
  exact node ▸ access ▸ took.2 y found

theorem took_adding {use : Nat → Access → Prop} (used : use x.node x.access) :
    (h.adding (some x)).Took h.handles.length use := by
  refine ⟨by simp [adding], fun y found => ?_⟩
  rw [handle?_adding] at found
  cases found
  exact used

structure Spares (n : Nat) (h h' : Host) : Prop extends Later h h' where
  name : ∀ place, h'.nodeOf? place = some n ↔ h.nodeOf? place = some n
  content : h'.contentOf? n = h.contentOf? n
  handle : ∀ i x, x.node = n → (h'.handle? i = some x ↔ h.handle? i = some x)

namespace Spares

theorem refl (sound : h.Sound) : Spares n h h :=
  ⟨.refl sound, fun _ => Iff.rfl, rfl, fun _ _ _ => Iff.rfl⟩

theorem trans (first : Spares n h h') (second : Spares n h' h'') : Spares n h h'' :=
  ⟨first.toLater.trans second.toLater, fun place => (second.name place).trans (first.name place),
    second.content.trans first.content, fun i x there => (second.handle i x there).trans (first.handle i x there)⟩

end Spares

section Content

theorem content?_setContent {c d : Content} (found : (h.setContent n c).content? q = some d) :
    d = c ∨ h.content? q = some d := by
  obtain ⟨node, there, rfl⟩ := Option.map_eq_some_iff.1 found
  obtain ⟨k, at?, there⟩ := nodeOf?_of_node? there
  rw [setContent, List.getElem?_modify] at there
  split at there
  · obtain ⟨old, -, rfl⟩ := Option.map_eq_some_iff.1 there
    exact .inl rfl
  · refine .inr ?_
    rw [content?, node?_of_nodeOf? (h := h) at?]
    simp only [Option.map_eq_map, Option.map_id_fun', id] at there
    rw [there]
    rfl

theorem contentOf?_setContent_ne (other : n ≠ j) (c : Content) : (h.setContent j c).contentOf? n = h.contentOf? n := by
  unfold contentOf? setContent
  rw [List.getElem?_modify]
  simp only [if_neg (Ne.symm other)]
  cases h.nodes[n]? <;> rfl

end Content

section Steps

theorem later_setContent (sound : h.Sound) {c : Content} (noDirectory : c ≠ .directory)
    (noLink : ∀ target, c ≠ .link target) : Later h (h.setContent n c) where
  directory := rfl
  retains q d kind found := by
    obtain rfl | before := content?_setContent found
    · obtain rfl | ⟨target, rfl⟩ := kind
      · exact absurd rfl noDirectory
      · exact absurd rfl (noLink target)
    · exact before
  many := Nat.le_refl _
  held _ found := ⟨_, found, rfl, rfl⟩
  sound := sound.setContent n c

theorem spares_setContent (sound : h.Sound) {c : Content} (noDirectory : c ≠ .directory)
    (noLink : ∀ target, c ≠ .link target) (other : n ≠ j) : Spares n h (h.setContent j c) :=
  ⟨later_setContent sound noDirectory noLink, fun _ => Iff.rfl, contentOf?_setContent_ne other c, fun _ _ _ => Iff.rfl⟩

theorem later_adding (sound : h.Sound) (there : x.node < h.nodes.length) : Later h (h.adding (some x)) where
  directory := rfl
  retains _ _ _ found := found
  many := by simp [adding]
  held old found := by
    obtain before | ⟨rfl, -⟩ := handle?_adding_iff.1 found
    · exact ⟨_, before, rfl, rfl⟩
    · exact absurd old (Nat.lt_irrefl _)
  sound := sound.adding fun y same => by cases same; exact there

theorem spares_adding (sound : h.Sound) (there : x.node < h.nodes.length) (other : x.node ≠ n) :
    Spares n h (h.adding (some x)) where
  toLater := later_adding sound there
  name _ := Iff.rfl
  content := rfl
  handle i y on := by
    rw [handle?_adding_iff]
    refine ⟨fun found => found.resolve_right ?_, .inl⟩
    rintro ⟨-, same⟩
    cases same
    exact other on

theorem enter_adding {added : Option Handle} {directory : String} {way : Location × Nat}
    (entered : h.enter directory = .ok way) : (h.adding added).enter directory = .ok way := by
  have kept : h.Retains (h.adding added) := fun _ _ _ found => found
  exact enter_retained kept rfl entered

theorem enter_create {place : Location} {node : Node} {directory : String} {way : Location × Nat} (sound : h.Sound)
    (free : h.nodeOf? place = none) (entered : h.enter directory = .ok way) :
    (h.create place node).enter directory = .ok way := by
  have kept : h.Retains (h.create place node) := by
    intro q content kind there
    rw [Host.content?, node?_create sound free]
    split
    · next same =>
      rw [same, Host.content?, Host.node?, free] at there
      cases there
    · exact there
  exact enter_retained kept rfl entered

theorem later_setHandle (sound : h.Sound) (held : h.handle? i = some y) (node : x.node = y.node)
    (access : x.access = y.access) : Later h (h.setHandle i x) where
  directory := rfl
  retains _ _ _ found := found
  many := by simp [setHandle]
  held {j z} _ found := by
    rw [handle?_setHandle held] at found
    split at found
    · next same =>
      cases found
      exact ⟨y, same ▸ held, node.symm, access.symm⟩
    · exact ⟨z, found, rfl, rfl⟩
  sound := by
    refine ⟨sound.apart, sound.there, fun {j z} found => ?_⟩
    rw [handle?_setHandle held] at found
    split at found
    · cases found
      exact node ▸ sound.held held
    · exact sound.held found

theorem spares_setHandle (sound : h.Sound) (held : h.handle? i = some y) (node : x.node = y.node)
    (access : x.access = y.access) (other : y.node ≠ n) : Spares n h (h.setHandle i x) where
  toLater := later_setHandle sound held node access
  name _ := Iff.rfl
  content := rfl
  handle j z on := by
    rw [handle?_setHandle held]
    split
    · next same =>
      subst same
      constructor
      · intro found
        cases found
        exact absurd (node.symm.trans on) other
      · intro found
        rw [held] at found
        cases found
        exact absurd on other
    · exact Iff.rfl

theorem later_removing (sound : h.Sound) : Later h (h.removing i) where
  directory := rfl
  retains _ _ _ found := found
  many := by simp [removing]
  held _ found := ⟨_, (handle?_of_removing found).1, rfl, rfl⟩
  sound := ⟨sound.apart, sound.there, fun found => sound.held (handle?_of_removing found).1⟩

theorem spares_removing (sound : h.Sound) (other : ∀ x, h.handle? i = some x → x.node ≠ n) :
    Spares n h (h.removing i) where
  toLater := later_removing sound
  name _ := Iff.rfl
  content := rfl
  handle j z on := by
    rw [handle?_removing]
    split
    · next same =>
      subst same
      exact ⟨fun found => (by cases found), fun found => absurd on (other z found)⟩
    · exact Iff.rfl

theorem later_close (sound : h.Sound) (i : Nat) : Later h (h.close i) := by
  cases held : h.handle? i with
  | none =>
    rw [close_of_none held]
    exact .refl sound
  | some x =>
    obtain same | ⟨-, -, same⟩ := close_eq held
    · exact same ▸ later_removing sound
    · rw [same]
      exact (later_removing sound).trans (later_setContent (later_removing sound).sound (by simp) (by simp))

theorem spares_close (sound : h.Sound) (other : ∀ x, h.handle? i = some x → x.node ≠ n) : Spares n h (h.close i) := by
  cases held : h.handle? i with
  | none =>
    rw [close_of_none held]
    exact .refl sound
  | some x =>
    have first := spares_removing sound other
    obtain same | ⟨-, -, same⟩ := close_eq held
    · exact same ▸ first
    · rw [same]
      exact first.trans (spares_setContent first.sound (by simp) (by simp) (Ne.symm (other x held)))

theorem later_forget (sound : h.Sound) : Later h (h.forget place) where
  directory := rfl
  retains q c _ found := by
    rw [content?, node?_forget] at found
    split at found
    · cases found
    · exact found
  many := Nat.le_refl _
  held _ found := ⟨_, found, rfl, rfl⟩
  sound := sound.forget place

theorem spares_forget (sound : h.Sound) (other : h.nodeOf? place ≠ some n) : Spares n h (h.forget place) where
  toLater := later_forget sound
  name q := by
    rw [nodeOf?_forget]
    split
    · next same =>
      subst same
      exact ⟨fun found => (by cases found), fun found => absurd found other⟩
    · exact Iff.rfl
  content := rfl
  handle _ _ _ := Iff.rfl

theorem later_create (sound : h.Sound) (free : h.nodeOf? place = none) {node : Node}
    (noDirectory : node.content ≠ .directory) (noLink : ∀ target, node.content ≠ .link target) :
    Later h (h.create place node) where
  directory := rfl
  retains q c kind found := by
    rw [content?, node?_create sound free] at found
    split at found
    · cases found
      obtain same | ⟨target, same⟩ := kind
      · exact absurd same noDirectory
      · exact absurd same (noLink target)
    · exact found
  many := Nat.le_refl _
  held _ found := ⟨_, found, rfl, rfl⟩
  sound := sound.create free

theorem spares_create (sound : h.Sound) (free : h.nodeOf? place = none) {node : Node}
    (noDirectory : node.content ≠ .directory) (noLink : ∀ target, node.content ≠ .link target)
    (there : n < h.nodes.length) : Spares n h (h.create place node) where
  toLater := later_create sound free noDirectory noLink
  name q := by
    rw [nodeOf?_create free]
    split
    · next same =>
      subst same
      rw [free]
      refine ⟨fun found => ?_, fun found => by cases found⟩
      cases found
      exact absurd there (Nat.lt_irrefl _)
    · exact Iff.rfl
  content := by rw [contentOf?, contentOf?, create, List.getElem?_append_left there]
  handle _ _ _ := Iff.rfl

end Steps

section Calls

theorem walk_of_find {follow : Bool} {number : Nat} {node : Node}
    (found : h.find follow path = .ok (place, number, node)) :
    h.walk follow path = .ok place ∧ h.nodeOf? place = some number ∧ h.nodes[number]? = some node := by
  unfold find at found
  cases walked : h.walk follow path with
  | error e => rw [walked] at found; cases found
  | ok p =>
    rw [walked] at found
    simp only [bind, Except.bind] at found
    split at found
    · cases found
    · next at? =>
      split at found
      · cases found
      · next there =>
        cases found
        exact ⟨rfl, at?, there⟩

/-- Opening a path fails and does nothing, or takes a new handle on the node that is found there. -/
theorem openPath_cases (path : String) (access : Access) (blocking : Bool) (h : Host) :
    (∃ e, h.openPath path access blocking = (.error e, h)) ∨
      ∃ place number node, h.find true path = .ok (place, number, node) ∧
        (∀ b, node.content = .pipe b → h.meets number access blocking = .ok ()) ∧
        h.openPath path access blocking =
          (.ok h.handles.length, h.adding (some { node := number, access, blocking })) := by
  unfold openPath
  cases found : h.find true path with
  | error e => exact .inl ⟨e, rfl⟩
  | ok way =>
    obtain ⟨place, number, node⟩ := way
    dsimp only
    split
    · exact .inl ⟨_, rfl⟩
    · next opened =>
      refine .inr ⟨place, number, node, rfl, fun b pipe => ?_, rfl⟩
      cases allowed : allows node access with
      | false => simp [pipe, allowed, throw, throwThe, MonadExceptOf.throw, bind, Except.bind] at opened
      | true => simpa [pipe, allowed, bind, Except.bind, pure, Except.pure] using opened

theorem makePipe_cases (path : String) (permissions : Nat) (h : Host) :
    (∃ e, h.makePipe path permissions = (.error e, h)) ∨
      ∃ place, h.walk false path = .ok place ∧ h.nodeOf? place = none ∧
        h.makePipe path permissions = (.ok (), h.create place ⟨.pipe {}, grant permissions⟩) := by
  unfold makePipe make
  cases h.walk false path with
  | error e => exact .inl ⟨e, rfl⟩
  | ok place =>
    dsimp only
    split
    · exact .inl ⟨_, rfl⟩
    · next free =>
      split
      · exact .inr ⟨place, rfl, Option.not_isSome_iff_eq_none.1 free, rfl⟩
      · exact .inl ⟨_, rfl⟩

theorem unlink_cases (path : String) (h : Host) :
    (h.unlink path).2 = h ∨ ∃ place, h.walk false path = .ok place ∧ (h.unlink path).2 = h.forget place := by
  unfold unlink
  cases found : h.find false path with
  | error e => exact .inl rfl
  | ok way =>
    obtain ⟨place, number, node⟩ := way
    dsimp only
    split
    · exact .inl rfl
    split
    · exact .inl rfl
    · exact .inr ⟨place, (walk_of_find found).1, rfl⟩

theorem nodeOf?_of_unlink (at? : (h.unlink path).2.nodeOf? place = some n) : h.nodeOf? place = some n := by
  obtain same | ⟨gone, -, same⟩ := unlink_cases path h <;> rw [same] at at?
  · exact at?
  · rw [nodeOf?_forget] at at?
    split at at?
    · cases at?
    · exact at?

theorem spares_unlink (sound : h.Sound) (other : ∀ place, h.walk false path = .ok place → h.nodeOf? place ≠ some n) :
    Spares n h (h.unlink path).2 := by
  obtain same | ⟨place, walked, same⟩ := unlink_cases path h
  · rw [same]
    exact .refl sound
  · rw [same]
    exact spares_forget sound (other place walked)

theorem later_unlink (sound : h.Sound) (path : String) : Later h (h.unlink path).2 :=
  (spares_unlink (n := h.nodes.length) sound fun _ _ at? => Nat.lt_irrefl _ (sound.there at?)).toLater

theorem makeBlocking_adding (x : Handle) :
    (h.adding (some x)).makeBlocking h.handles.length = h.adding (some { x with blocking := true }) := by
  unfold makeBlocking
  rw [handle?_adding]
  exact setHandle_adding _ _

theorem makeBlocking_adding_adding (x : Handle) (y : Option Handle) :
    ((h.adding (some x)).adding y).makeBlocking h.handles.length =
      (h.adding (some { x with blocking := true })).adding y := by
  have found : ((h.adding (some x)).adding y).handle? h.handles.length = some x :=
    handle?_adding_iff.2 (.inl (handle?_adding _))
  unfold makeBlocking
  rw [found]
  simp [setHandle, adding]

theorem spares_makeBlocking (sound : h.Sound) (other : ∀ x, h.handle? i = some x → x.node ≠ n) :
    Spares n h (h.makeBlocking i) := by
  unfold makeBlocking
  cases held : h.handle? i with
  | none => exact .refl sound
  | some x => exact spares_setHandle sound held rfl rfl (other x held)

/-- Everything that reading by a handle can do: move the handle, take from the pipe on which it is open, or nothing. -/
theorem read_moves (i room : Nat) (h : Host) :
    (h.read i room).2 = h ∨ ∃ x, h.handle? i = some x ∧
      ((∃ offset, (h.read i room).2 = h.setHandle i { x with offset }) ∨
        ∃ b, h.contentOf? x.node = some (.pipe b) ∧
          (h.read i room).2 = h.setContent x.node (.pipe (b.read room).2)) := by
  unfold read
  cases h.handle? i with
  | none => exact .inl rfl
  | some x =>
    dsimp only
    split
    · exact .inr ⟨x, rfl, .inl ⟨_, rfl⟩⟩
    · next b pipe =>
      split
      · split <;> exact .inl rfl
      · exact .inr ⟨x, rfl, .inr ⟨b, pipe, rfl⟩⟩
    all_goals exact .inl rfl

/-- Everything that writing by a handle can do: write over a file and move the handle, put something into the pipe on
which it is open, or nothing. -/
theorem write_moves (i : Nat) (bytes : List UInt8) (h : Host) :
    (h.write i bytes).2 = h ∨ ∃ x, h.handle? i = some x ∧
      ((∃ written offset,
          (h.write i bytes).2 = (h.setContent x.node (.file written)).setHandle i { x with offset }) ∨
        ∃ b, (h.write i bytes).2 = h.setContent x.node (.pipe b)) := by
  unfold write
  cases h.handle? i with
  | none => exact .inl rfl
  | some x =>
    dsimp only
    split
    · exact .inr ⟨x, rfl, .inl ⟨_, _, rfl⟩⟩
    · split
      · exact .inl rfl
      split
      · exact .inl rfl
      split
      · exact .inl rfl
      · exact .inr ⟨x, rfl, .inr ⟨_, rfl⟩⟩
    all_goals exact .inl rfl

theorem later_read (sound : h.Sound) (room : Nat) :
    Later h (h.read i room).2 ∧ ((∀ x, h.handle? i = some x → x.node ≠ n) → Spares n h (h.read i room).2) := by
  obtain same | ⟨x, held, ⟨offset, same⟩ | ⟨b, -, same⟩⟩ := read_moves i room h <;> rw [same]
  · exact ⟨.refl sound, fun _ => .refl sound⟩
  · exact ⟨later_setHandle sound held rfl rfl, fun other => spares_setHandle sound held rfl rfl (other x held)⟩
  · exact ⟨later_setContent sound (by simp) (by simp),
      fun other => spares_setContent sound (by simp) (by simp) (Ne.symm (other x held))⟩

theorem later_write (sound : h.Sound) (bytes : List UInt8) :
    Later h (h.write i bytes).2 ∧ ((∀ x, h.handle? i = some x → x.node ≠ n) → Spares n h (h.write i bytes).2) := by
  obtain same | ⟨x, held, ⟨written, offset, same⟩ | ⟨b, same⟩⟩ := write_moves i bytes h <;> rw [same]
  · exact ⟨.refl sound, fun _ => .refl sound⟩
  · have first : Later h (h.setContent x.node (.file written)) := later_setContent sound (by simp) (by simp)
    refine ⟨first.trans (later_setHandle first.sound held rfl rfl), fun other => ?_⟩
    have second := spares_setContent (c := .file written) sound (by simp) (by simp) (Ne.symm (other x held))
    exact second.trans (spares_setHandle second.sound held rfl rfl (other x held))
  · exact ⟨later_setContent sound (by simp) (by simp),
      fun other => spares_setContent sound (by simp) (by simp) (Ne.symm (other x held))⟩

end Calls

end Host

end DiscCatalog
