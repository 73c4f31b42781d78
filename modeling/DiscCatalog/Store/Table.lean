namespace DiscCatalog

class KeyOrder (κ : Type) [LT κ] : Prop where
  irrefl (a : κ) : ¬ a < a
  trans {a b c : κ} : a < b → b < c → a < c
  connected (a b : κ) : a < b ∨ a = b ∨ b < a

class Keyed (ρ : Type) (κ : outParam Type) where
  key : ρ → κ

export Keyed (key)

/-- Rows in strictly increasing order of their keys. -/
structure Table (ρ : Type) {κ : Type} [LT κ] [Keyed ρ κ] where
  rows : List ρ
  ordered : rows.Pairwise (fun a b => key a < key b)

namespace Table

variable {ρ κ : Type} [LT κ] [Keyed ρ κ]

theorem ext {s t : Table ρ} (h : s.rows = t.rows) : s = t := by
  cases s; cases t; cases h; rfl

instance [DecidableEq ρ] : DecidableEq (Table ρ) := fun s t =>
  decidable_of_iff (s.rows = t.rows) ⟨ext, fun h => h ▸ rfl⟩

def empty : Table ρ := ⟨[], List.Pairwise.nil⟩

instance : Inhabited (Table ρ) := ⟨empty⟩

variable [DecidableLT κ]

def place (r : ρ) : List ρ → List ρ
  | [] => [r]
  | s :: rest =>
    if key r < key s then r :: s :: rest
    else if key s < key r then s :: place r rest
    else r :: rest

theorem mem_of_mem_place {r x : ρ} {rows : List ρ} (h : x ∈ place r rows) : x = r ∨ x ∈ rows := by
  induction rows with
  | nil => simpa [place] using h
  | cons s rest ih =>
    unfold place at h
    split at h
    · simpa using h
    · split at h
      · obtain rfl | h := List.mem_cons.1 h
        · exact Or.inr List.mem_cons_self
        · exact (ih h).imp id (List.mem_cons_of_mem _)
      · obtain rfl | h := List.mem_cons.1 h
        · exact Or.inl rfl
        · exact Or.inr (List.mem_cons_of_mem _ h)

theorem pairwise_place [KeyOrder κ] (r : ρ) {rows : List ρ}
    (h : rows.Pairwise (fun a b => key a < key b)) :
    (place r rows).Pairwise (fun a b => key a < key b) := by
  induction rows with
  | nil => simp [place]
  | cons s rest ih =>
    have later := (List.pairwise_cons.1 h).1
    have tail := (List.pairwise_cons.1 h).2
    unfold place
    split
    · next before =>
      refine List.pairwise_cons.2 ⟨fun x hx => ?_, h⟩
      obtain rfl | hx := List.mem_cons.1 hx
      · exact before
      · exact KeyOrder.trans before (later x hx)
    · next notBefore =>
      split
      · next after =>
        refine List.pairwise_cons.2 ⟨fun x hx => ?_, ih tail⟩
        obtain rfl | hx := mem_of_mem_place hx
        · exact after
        · exact later x hx
      · next notAfter =>
        have same : key r = key s :=
          (KeyOrder.connected (key r) (key s)).resolve_left notBefore |>.resolve_right notAfter
        exact List.pairwise_cons.2 ⟨fun x hx => same ▸ later x hx, tail⟩

def insert [KeyOrder κ] (r : ρ) (t : Table ρ) : Table ρ := ⟨place r t.rows, pairwise_place r t.ordered⟩

def after (k : κ) (t : Table ρ) : List ρ := t.rows.filter (k < key ·)

omit [DecidableLT κ]

def find? [DecidableEq κ] (k : κ) (t : Table ρ) : Option ρ := t.rows.find? (key · = k)

def erase [DecidableEq κ] (k : κ) (t : Table ρ) : Table ρ :=
  ⟨t.rows.filter (key · ≠ k), t.ordered.filter _⟩

def size (t : Table ρ) : Nat := t.rows.length

end Table

end DiscCatalog
