import Mathlib.Data.List.Nodup
import DiscCatalog.Host.Tree
import DiscCatalog.Proofs.Host.Descent

namespace DiscCatalog

namespace Host

/-- No two names have one node, and the nodes of names and handles are there. -/
structure Sound (h : Host) : Prop where
  apart : ∀ {p q n}, h.nodeOf? p = some n → h.nodeOf? q = some n → p = q
  there : ∀ {p n}, h.nodeOf? p = some n → n < h.nodes.length
  held : ∀ {i x}, h.handle? i = some x → x.node < h.nodes.length

variable {h : Host} {p q : Location} {number : Nat} {node : Node}

theorem node?_of_nodeOf? (at? : h.nodeOf? p = some number) : h.node? p = h.nodes[number]? := by
  rw [node?, at?]
  rfl

theorem nodeOf?_of_node? (found : h.node? p = some node) :
    ∃ number, h.nodeOf? p = some number ∧ h.nodes[number]? = some node := by
  rw [node?] at found
  cases at? : h.nodeOf? p with
  | none => rw [at?] at found; cases found
  | some number =>
    rw [at?] at found
    exact ⟨number, rfl, found⟩

theorem Sound.exists_node (sound : h.Sound) (at? : h.nodeOf? p = some number) :
    ∃ node, h.nodes[number]? = some node ∧ h.node? p = some node := by
  obtain ⟨node, there⟩ := Option.isSome_iff_exists.1 (by simpa using sound.there at? : (h.nodes[number]?).isSome)
  exact ⟨node, there, (node?_of_nodeOf? at?).trans there⟩

theorem Sound.nodeOf?_eq_none (sound : h.Sound) (free : h.node? p = none) : h.nodeOf? p = none := by
  cases at? : h.nodeOf? p with
  | none => rfl
  | some number =>
    obtain ⟨node, -, found⟩ := sound.exists_node at?
    rw [free] at found
    cases found

theorem mem_names_of_nodeOf? (at? : h.nodeOf? p = some number) : (p, number) ∈ h.names := by
  obtain ⟨before, after, names, -⟩ := List.lookup_eq_some_iff.1 at?
  rw [names]
  simp

theorem node?_eq_none_of_names (away : ∀ e ∈ h.names, e.1 ≠ p) : h.node? p = none := by
  rw [node?]
  cases at? : h.nodeOf? p with
  | none => rfl
  | some number => exact absurd rfl (away _ (mem_names_of_nodeOf? at?))

/-- A host is sound if its names and handles are those of nodes, no node having two names. -/
theorem Sound.of_names (apart : (h.names.map Prod.snd).Nodup) (there : ∀ e ∈ h.names, e.2 < h.nodes.length)
    (held : ∀ x ∈ h.handles, ∀ held ∈ x, held.node < h.nodes.length) : h.Sound := by
  refine ⟨fun {p q n} hp hq => ?_, fun {p n} hp => there _ (mem_names_of_nodeOf? hp), fun {i x} hx => ?_⟩
  · have same := List.inj_on_of_nodup_map apart (mem_names_of_nodeOf? hp) (mem_names_of_nodeOf? hq) rfl
    exact congrArg Prod.fst same
  · exact held _ (List.mem_of_getElem? (Option.join_eq_some_iff.1 hx)) x rfl

section Create

theorem nodeOf?_create (free : h.nodeOf? p = none) :
    (h.create p node).nodeOf? q = if q = p then some h.nodes.length else h.nodeOf? q := by
  unfold nodeOf? create at *
  rw [List.lookup_append]
  by_cases same : q = p
  · subst same
    simp [free]
  · have other : (q == p) = false := by simpa using same
    rw [if_neg same, List.lookup_cons, other, List.lookup_nil, Option.or_none]

theorem node?_create (sound : h.Sound) (free : h.nodeOf? p = none) :
    (h.create p node).node? q = if q = p then some node else h.node? q := by
  rw [node?, nodeOf?_create free]
  by_cases same : q = p
  · simp [same, create]
  · simp only [same, ↓reduceIte, create]
    rw [node?]
    cases at? : h.nodeOf? q with
    | none => rfl
    | some number =>
      change (h.nodes ++ [node])[number]? = h.nodes[number]?
      rw [List.getElem?_append_left (sound.there at?)]

theorem nodeOf?_create_self (free : h.nodeOf? p = none) (node : Node) :
    (h.create p node).nodeOf? p = some h.nodes.length := by
  rw [nodeOf?_create free, if_pos rfl]

theorem node?_create_self (sound : h.Sound) (free : h.nodeOf? p = none) (node : Node) :
    (h.create p node).node? p = some node := by
  rw [node?_create sound free, if_pos rfl]

theorem Sound.create (sound : h.Sound) (free : h.nodeOf? p = none) : (h.create p node).Sound := by
  have more : (h.create p node).nodes.length = h.nodes.length + 1 := by simp [Host.create]
  refine ⟨fun {q r n} hq hr => ?_, fun {q n} hq => ?_, fun {i x} hx => ?_⟩
  · rw [nodeOf?_create free] at hq hr
    split at hq <;> split at hr
    · simp [*]
    · cases hq; exact absurd (sound.there hr) (Nat.lt_irrefl _)
    · cases hr; exact absurd (sound.there hq) (Nat.lt_irrefl _)
    · exact sound.apart hq hr
  · rw [nodeOf?_create free] at hq
    rw [more]
    split at hq
    · cases hq; exact Nat.lt_succ_self _
    · exact Nat.lt_succ_of_lt (sound.there hq)
  · rw [more]
    exact Nat.lt_succ_of_lt (sound.held hx)

end Create

section SetContent

theorem node?_setContent (sound : h.Sound) (at? : h.nodeOf? p = some number) (content : Content) :
    (h.setContent number content).node? q =
      if q = p then (h.node? q).map ({ · with content }) else h.node? q := by
  rw [node?, node?]
  change (h.nodeOf? q >>= fun n => (h.nodes.modify number _)[n]?) = _
  by_cases same : q = p
  · subst same
    rw [at?]
    simp [List.getElem?_modify]
  · rw [if_neg same]
    cases other : h.nodeOf? q with
    | none => rfl
    | some n =>
      have apart : number ≠ n := fun e => same (sound.apart other (e ▸ at?))
      simp [List.getElem?_modify, apart]

theorem Sound.setContent (sound : h.Sound) (number : Nat) (content : Content) : (h.setContent number content).Sound := by
  have many : (h.setContent number content).nodes.length = h.nodes.length := by simp [Host.setContent]
  exact ⟨sound.apart, fun hp => many ▸ sound.there hp, fun hx => many ▸ sound.held hx⟩

end SetContent

section Forget

theorem nodeOf?_forget : (h.forget p).nodeOf? q = if q = p then none else h.nodeOf? q := by
  unfold nodeOf? forget
  induction h.names with
  | nil => simp
  | cons entry names ih =>
    obtain ⟨place, number⟩ := entry
    by_cases kept : place = p
    · subst kept
      rw [List.filter_cons_of_neg (by simp), ih, List.lookup_cons]
      by_cases same : q = place
      · simp [same]
      · have other : (q == place) = false := by simpa using same
        rw [if_neg same, if_neg same, other]
    · rw [List.filter_cons_of_pos (by simpa using kept), List.lookup_cons, List.lookup_cons, ih]
      by_cases same : q = place
      · subst same
        simp [kept]
      · have other : (q == place) = false := by simpa using same
        rw [other]

theorem node?_forget : (h.forget p).node? q = if q = p then none else h.node? q := by
  rw [node?, nodeOf?_forget]
  split <;> rfl

theorem Sound.forget (sound : h.Sound) (p : Location) : (h.forget p).Sound := by
  refine ⟨fun {q r n} hq hr => ?_, fun {q n} hq => ?_, sound.held⟩
  · rw [nodeOf?_forget] at hq hr
    split at hq <;> split at hr <;> first | cases hq | cases hr | exact sound.apart hq hr
  · rw [nodeOf?_forget] at hq
    split at hq
    · cases hq
    · exact sound.there hq

end Forget

end Host

end DiscCatalog
