import DiscCatalog.Proofs.Host.Confined

namespace DiscCatalog

def Content.Firm (c : Content) : Prop := c = .directory ∨ ∃ target, c = .link target

theorem Content.not_firm_pipe (b : PipeBuffer) : ¬ (Content.pipe b).Firm := by
  rintro (same | ⟨target, same⟩) <;> cases same

namespace Host

variable {h h' h'' : Host} {path : String} {place : Location} {n i : Nat} {x : Handle} {node : Node}

structure Calm (h h' : Host) : Prop where
  firm : ∀ place n node, h.nodeOf? place = some n → h.nodes[n]? = some node → node.content.Firm →
    h'.nodeOf? place = some n ∧ h'.nodes[n]? = some node
  bits : h.nodes.map (·.permissions) <+: h'.nodes.map (·.permissions)
  pages : h'.pipePages = h.pipePages
  directory : h'.directory = h.directory

namespace Calm

theorem refl (h : Host) : Calm h h := ⟨fun _ _ _ at? there _ => ⟨at?, there⟩, List.prefix_rfl, rfl, rfl⟩

theorem trans (first : Calm h h') (second : Calm h' h'') : Calm h h'' where
  firm place n node at? there firm := by
    obtain ⟨at?, there⟩ := first.firm place n node at? there firm
    exact second.firm place n node at? there firm
  bits := first.bits.trans second.bits
  pages := second.pages.trans first.pages
  directory := second.directory.trans first.directory

theorem node? (calm : Calm h h') (found : h.node? place = some node) (firm : node.content.Firm) :
    h'.node? place = some node := by
  obtain ⟨n, at?, there⟩ := nodeOf?_of_node? found
  obtain ⟨at?, there⟩ := calm.firm place n node at? there firm
  rw [node?_of_nodeOf? at?, there]

theorem enter (calm : Calm h h') {directory : String} {way : Location × Nat} (entered : h.enter directory = .ok way) :
    h'.enter directory = .ok way := by
  have kept : h.Retains h' := by
    intro place content kind found
    obtain ⟨node, there, rfl⟩ := Option.map_eq_some_iff.1 found
    rw [content?, calm.node? there kind]
    rfl
  exact enter_retained kept calm.directory entered

end Calm

def Usable (n : Nat) (h : Host) : Prop := ∃ bits, (h.nodes.map (·.permissions))[n]? = some bits ∧ bits &&& 0o600 = 0o600

theorem Usable.calm (usable : Usable n h) (calm : Calm h h') : Usable n h' := by
  obtain ⟨bits, there, owned⟩ := usable
  obtain ⟨more, same⟩ := calm.bits
  refine ⟨bits, ?_, owned⟩
  rw [← same, List.getElem?_append_left (List.getElem?_eq_some_iff.1 there).1]
  exact there

theorem allows_of_owned (owned : node.permissions &&& 0o600 = 0o600) (access : Access) : allows node access = true := by
  have part : ∀ bit, 0o600 &&& bit = bit → bit ≠ 0 → node.permissions &&& bit ≠ 0 := by
    intro bit within some none
    have both := congrArg (· &&& bit) owned
    rw [Nat.and_assoc, within, none] at both
    exact some both.symm
  cases access with
  | read => exact decide_eq_true (part 0o400 (by decide) (by decide))
  | write => exact decide_eq_true (part 0o200 (by decide) (by decide))

theorem Usable.allows (usable : Usable n h) (there : h.nodes[n]? = some node) (access : Access) :
    Host.allows node access = true := by
  obtain ⟨bits, found, owned⟩ := usable
  rw [List.getElem?_map, there] at found
  cases found
  exact allows_of_owned owned access

theorem grant_owned {asked : Nat} (owned : asked &&& 0o600 = 0o600) : grant asked &&& 0o600 = 0o600 := by
  unfold grant withheld
  rw [Nat.and_assoc, Nat.and_assoc]
  exact owned

theorem calm_of_handles (handles : List (Option Handle)) (h : Host) : Calm h { h with handles } :=
  ⟨fun _ _ _ at? there _ => ⟨at?, there⟩, List.prefix_rfl, rfl, rfl⟩

/-- What is in a pipe or a file matters to no way through the host. -/
theorem calm_setContent {old : Content} (there : h.contentOf? n = some old) (soft : ¬ old.Firm) (c : Content) :
    Calm h (h.setContent n c) where
  firm place k node at? found firm := by
    have other : n ≠ k := by
      rintro rfl
      rw [contentOf?, found] at there
      cases there
      exact soft firm
    refine ⟨at?, ?_⟩
    rw [setContent, List.getElem?_modify, found]
    simp only [if_neg other, Option.map_eq_map, Option.map_some]
  bits := by
    have same : (h.setContent n c).nodes.map (·.permissions) = h.nodes.map (·.permissions) := by
      refine List.ext_getElem? fun k => ?_
      rw [setContent, List.getElem?_map, List.getElem?_map, List.getElem?_modify]
      split
      · cases h.nodes[k]? <;> rfl
      · cases h.nodes[k]? <;> rfl
    exact same ▸ List.prefix_rfl
  pages := rfl
  directory := rfl

theorem calm_close (i : Nat) (h : Host) : Calm h (h.close i) := by
  cases held : h.handle? i with
  | none =>
    rw [close_of_none held]
    exact .refl h
  | some x =>
    obtain same | ⟨-, ⟨b, pipe⟩, same⟩ := close_eq held
    · exact same ▸ calm_of_handles _ h
    · rw [same]
      have there : (h.removing i).contentOf? x.node = some (.pipe b) := pipe
      exact (calm_of_handles _ h).trans (calm_setContent there (Content.not_firm_pipe b) _)

theorem calm_forget (soft : ∀ content, h.content? place = some content → ¬ content.Firm) : Calm h (h.forget place) where
  firm q k node at? found firm := by
    refine ⟨?_, found⟩
    rw [nodeOf?_forget, if_neg]
    · exact at?
    · rintro rfl
      exact soft node.content (by rw [content?, node?_of_nodeOf? at?, found]; rfl) firm
  bits := List.prefix_rfl
  pages := rfl
  directory := rfl

theorem calm_create (free : h.nodeOf? place = none) (node : Node) : Calm h (h.create place node) where
  firm q k old at? found _ := by
    refine ⟨?_, ?_⟩
    · rw [nodeOf?_create free, if_neg]
      · exact at?
      · rintro rfl
        cases free.symm.trans at?
    · rw [create, List.getElem?_append_left (List.getElem?_eq_some_iff.1 found).1]
      exact found
  bits := by
    rw [create, List.map_append]
    exact List.prefix_append _ _
  pages := rfl
  directory := rfl

theorem usable_create {node : Node} (owned : node.permissions &&& 0o600 = 0o600) :
    Usable h.nodes.length (h.create place node) := by
  refine ⟨node.permissions, ?_, owned⟩
  simp [create]

structure Steady (n : Nat) (h h' : Host) : Prop where
  aloof : Aloof n h h'
  calm : Calm h h'

namespace Steady

theorem refl (sound : h.Sound) : Steady n h h := ⟨.refl sound, .refl h⟩

theorem trans (first : Steady n h h') (second : Steady n h' h'') : Steady n h h'' :=
  ⟨first.aloof.trans second.aloof, first.calm.trans second.calm⟩

theorem adding (sound : h.Sound) (there : x.node < h.nodes.length) (on : x.node = n) : Steady n h (h.adding (some x)) :=
  ⟨fun _ => confined_adding sound there (.inl on), calm_of_handles _ h⟩

theorem setContent {b b' : PipeBuffer} (sound : h.Sound) (there : h.contentOf? n = some (.pipe b)) :
    Steady n h (h.setContent n (.pipe b')) :=
  ⟨fun _ => confined_setContent sound (by simp) (by simp) (.inl rfl),
    calm_setContent there (Content.not_firm_pipe b) _⟩

theorem close (sound : h.Sound) (on : ∀ x, h.handle? i = some x → x.node = n) : Steady n h (h.close i) :=
  ⟨fun _ => confined_close sound fun x held => .inl (on x held), calm_close i h⟩

end Steady

end Host

end DiscCatalog
