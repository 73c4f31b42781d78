import DiscCatalog.Proofs.Archive.RoundTrip

namespace DiscCatalog

namespace TableFile

variable {α β ρ : Type} [RowForm ρ]

def RefusesParts (read : Reader α) (bs : List UInt8) : Prop :=
  ∀ part, part <+: bs → part ≠ bs → read part = .error .truncated

theorem refusesParts_nil (read : Reader α) : RefusesParts read [] :=
  fun _ within short => absurd (List.prefix_nil.1 within) short

theorem RefusesParts.bind {first : Reader α} {next : α × List UInt8 → Except TableFault β} {bs cs : List UInt8} {a : α}
    (refused : RefusesParts first bs) (whole : ∀ rest, first (bs ++ rest) = .ok (a, rest))
    (later : ∀ part, part <+: cs → part ≠ cs → next (a, part) = .error .truncated) :
    ∀ part, part <+: bs ++ cs → part ≠ bs ++ cs → first part >>= next = .error .truncated := by
  intro part within short
  -- A cut right at the end of what the first reads is for the second to refuse.
  obtain cut | ⟨rest, rfl⟩ := List.prefix_or_prefix_of_prefix within (List.prefix_append bs cs)
  · by_cases all : part = bs
    · subst all
      have given := whole []
      rw [List.append_nil] at given
      rw [given]
      refine later [] List.nil_prefix fun none => short ?_
      rw [← none, List.append_nil]
    · rw [refused part cut all]
      rfl
  · rw [whole rest]
    exact later rest ((List.prefix_append_right_inj bs).1 within) fun same => short (by rw [same])

theorem refusesParts_readBlock (block : List UInt8) : RefusesParts (readBlock block.length) block := by
  intro part within short
  have less : part.length < block.length :=
    Nat.lt_of_le_of_ne within.length_le fun same => short (within.eq_of_length same)
  rw [readBlock, if_neg (Nat.not_le.2 less)]

theorem refusesParts_readCount (n : Nat) : RefusesParts readCount (writeCount n) := by
  have eight : (writeCount n).length = 8 := LittleEndian.length_encode 8 n
  intro part within short
  rw [readCount, ← eight, refusesParts_readBlock _ part within short]
  rfl

theorem refusesParts_readText {s : String} (small : s.utf8ByteSize < limit) : RefusesParts readText (writeText s) := by
  refine (refusesParts_readCount _).bind (readCount_append small) fun part within short => ?_
  dsimp only
  rw [← Text.length_bytes, refusesParts_readBlock _ part within short]
  rfl

def Unbroken (row : ρ) : Prop := RefusesParts (RowForm.read : Reader ρ) (RowForm.write row)

theorem refusesParts_readRows {rows : List ρ} (back : ∀ row ∈ rows, ReadsBack row)
    (refused : ∀ row ∈ rows, Unbroken row) :
    RefusesParts (readRows rows.length : Reader (List ρ)) (rows.flatMap RowForm.write) := by
  induction rows with
  | nil => exact refusesParts_nil _
  | cons row rows ih =>
    obtain ⟨thisBack, otherBack⟩ := List.forall_mem_cons.1 back
    obtain ⟨this, others⟩ := List.forall_mem_cons.1 refused
    refine this.bind thisBack fun part within short => ?_
    dsimp only
    rw [ih otherBack others part within short]
    rfl

end TableFile

open TableFile

theorem CatalogEntry.Sized.unbroken {e : CatalogEntry} (h : e.Sized) : Unbroken e := by
  change RefusesParts _ (writeText e.catalog ++ writeText e.title ++ writeText e.kind ++ writeText e.artist)
  rw [List.append_assoc, List.append_assoc]
  refine (refusesParts_readText h.catalog).bind (readText_append h.catalog) ?_
  refine (refusesParts_readText h.title).bind (readText_append h.title) ?_
  refine (refusesParts_readText h.kind).bind (readText_append h.kind) fun part within short => ?_
  dsimp only
  rw [refusesParts_readText h.artist part within short]
  rfl

theorem TrackEntry.Sized.unbroken {e : TrackEntry} (h : e.Sized) : Unbroken e := by
  have four : (LittleEndian.ofInt32 e.number).length = 4 := LittleEndian.length_encode 4 _
  have word := refusesParts_readBlock (LittleEndian.ofInt32 e.number)
  have whole := readBlock_append (LittleEndian.ofInt32 e.number)
  rw [four] at word whole
  change RefusesParts _ (writeText e.catalog ++ LittleEndian.ofInt32 e.number ++ writeText e.text)
  rw [List.append_assoc]
  refine (refusesParts_readText h.catalog).bind (readText_append h.catalog) ?_
  refine word.bind whole fun part within short => ?_
  dsimp only
  rw [refusesParts_readText h.text part within short]
  rfl

/-- A form of tables in which a file shows where it ends: it gives its rows whatever stands behind them, no part of
it is taken for a table, and other rows make another file. -/
structure TableFile.Delimits {ρ : Type} [RowForm ρ] (Proper : ρ → Prop) : Prop where
  whole : ∀ rows : List ρ, rows.length < limit → (∀ row ∈ rows, Proper row) → ∀ trailing,
    decode (encode rows ++ trailing) = .ok rows
  parts : ∀ rows : List ρ, rows.length < limit → (∀ row ∈ rows, Proper row) → ∀ part, part <+: encode rows →
    part ≠ encode rows → (decode part : Except TableFault (List ρ)) = .error .truncated
  apart : ∀ rows others : List ρ, rows.length < limit → others.length < limit → (∀ row ∈ rows, Proper row) →
    (∀ row ∈ others, Proper row) → encode rows = encode others → rows = others

theorem TableFile.delimits {ρ : Type} [RowForm ρ] {Proper : ρ → Prop} (back : ∀ row, Proper row → ReadsBack row)
    (refused : ∀ row, Proper row → Unbroken row) : Delimits Proper := by
  have whole (rows : List ρ) (few : rows.length < limit) (proper : ∀ row ∈ rows, Proper row) (trailing : List UInt8) :
      decode (encode rows ++ trailing) = .ok rows := by
    rw [decode, encode, List.append_assoc]
    simp only [readCount_append few, bind, Except.bind, readRows_append fun row hr => back row (proper row hr)]
    rfl
  refine ⟨whole, fun rows few proper part within short => ?_, fun rows others few few' proper proper' same => ?_⟩
  · refine (refusesParts_readCount _).bind (readCount_append few) (fun rest inside less => ?_) part within short
    dsimp only
    rw [refusesParts_readRows (fun row hr => back row (proper row hr)) (fun row hr => refused row (proper row hr)) rest
      inside less]
    rfl
  · have first := whole rows few proper []
    rw [same, whole others few' proper' []] at first
    exact (Except.ok.inj first).symm

theorem CatalogEntry.delimits : Delimits CatalogEntry.Sized :=
  TableFile.delimits (fun _ => CatalogEntry.Sized.readsBack) fun _ => CatalogEntry.Sized.unbroken

theorem TrackEntry.delimits : Delimits TrackEntry.Sized :=
  TableFile.delimits (fun _ => TrackEntry.Sized.readsBack) fun _ => TrackEntry.Sized.unbroken

end DiscCatalog
