import DiscCatalog.Proofs.Archive.RoundTrip
import DiscCatalog.Proofs.Archive.Tables
import DiscCatalog.Proofs.Store.Rows

namespace DiscCatalog

namespace Table

variable {ρ κ : Type} [LT κ] [Keyed ρ κ] [DecidableLT κ] [KeyOrder κ]

/-- The table that rows make when they are put in one after the other. -/
def ofRows (rows : List ρ) : Table ρ := rows.foldl (fun t r => t.insert r) .empty

theorem place_last {r : ρ} {rows : List ρ} (last : ∀ x ∈ rows, key x < key r) : place r rows = rows ++ [r] := by
  induction rows with
  | nil => rfl
  | cons s rest ih =>
    have before : key s < key r := last s List.mem_cons_self
    have notAfter : ¬ key r < key s := fun after => KeyOrder.irrefl _ (KeyOrder.trans before after)
    rw [place, if_neg notAfter, if_pos before, ih fun x hx => last x (List.mem_cons_of_mem _ hx), List.cons_append]

theorem rows_foldl_insert {t : Table ρ} {rows : List ρ}
    (ordered : (t.rows ++ rows).Pairwise fun a b => key a < key b) :
    (rows.foldl (fun t r => t.insert r) t).rows = t.rows ++ rows := by
  induction rows generalizing t with
  | nil => rw [List.foldl_nil, List.append_nil]
  | cons r rows ih =>
    have last : ∀ x ∈ t.rows, key x < key r := fun x hx =>
      (List.pairwise_append.1 ordered).2.2 x hx r List.mem_cons_self
    have next : (t.insert r).rows = t.rows ++ [r] := place_last last
    have onwards : (t.insert r).rows ++ rows = t.rows ++ r :: rows := by rw [next, List.append_assoc, List.singleton_append]
    rw [List.foldl_cons, ih (onwards ▸ ordered), onwards]

theorem ofRows_rows (t : Table ρ) : ofRows t.rows = t := by
  refine ext ?_
  rw [ofRows, rows_foldl_insert] <;> simp only [empty, List.nil_append]
  exact t.ordered

theorem mem_of_mem_ofRows {rows : List ρ} {x : ρ} (h : x ∈ (ofRows rows).rows) : x ∈ rows := by
  have all : ∀ (rows : List ρ) (t : Table ρ), x ∈ (rows.foldl (fun t r => t.insert r) t).rows → x ∈ t.rows ∨ x ∈ rows := by
    intro rows
    induction rows with
    | nil => exact fun t h => .inl h
    | cons r rows ih =>
      intro t h
      obtain h | h := ih (t.insert r) h
      · obtain rfl | h := mem_insert h
        · exact .inr List.mem_cons_self
        · exact .inl h
      · exact .inr (List.mem_cons_of_mem _ h)
  obtain none | h := all rows .empty h
  · cases none
  · exact h

omit [KeyOrder κ] in
theorem length_place_le (r : ρ) (rows : List ρ) : (place r rows).length ≤ rows.length + 1 := by
  induction rows with
  | nil => exact Nat.le_refl _
  | cons s rest ih =>
    rw [place]
    split
    · exact Nat.le_refl _
    · split
      · exact Nat.succ_le_succ ih
      · exact Nat.le_succ _

end Table

def Change.Sized : Change → Prop
  | .putCatalog e => e.Sized
  | .putTrack e => e.Sized
  | _ => True

namespace Store

def atStart (s : Store) : Store := { s with scan := .start }

structure Sized (s : Store) : Prop where
  catalogs : ∀ e ∈ s.catalogs.rows, e.Sized
  tracks : ∀ e ∈ s.tracks.rows, e.Sized

theorem sized_empty : Sized {} := ⟨by simp [Table.empty], by simp [Table.empty]⟩

theorem Sized.apply {c : Change} {s t : Store} (hs : s.Sized) (hc : c.Sized) (h : s.apply c = .ok t) : t.Sized := by
  obtain ⟨catalogs, tracks⟩ := forall_rows_of_apply ⟨hs.catalogs, hs.tracks⟩ (fun e he _ => by subst he; exact hc)
    (fun e he _ => by subst he; exact hc) h
  exact ⟨catalogs, tracks⟩

theorem size_apply_le {c : Change} {s t : Store} (h : s.apply c = .ok t) :
    t.catalogs.size ≤ s.catalogs.size + 1 ∧ t.tracks.size ≤ s.tracks.size + 1 := by
  obtain ⟨e, rfl, -, rfl⟩ | ⟨e, rfl, -, rfl⟩ | ⟨key, rfl, -, rfl⟩ | ⟨key, number, rfl, -, rfl⟩ | ⟨rfl, rfl⟩ :=
    apply_eq_ok h
  · exact ⟨Table.length_place_le _ _, Nat.le_succ _⟩
  · exact ⟨Nat.le_succ _, Table.length_place_le _ _⟩
  · exact ⟨Nat.le_succ_of_le (List.length_filter_le _ _), Nat.le_succ _⟩
  · exact ⟨Nat.le_succ _, Nat.le_succ_of_le (List.length_filter_le _ _)⟩
  · exact ⟨Nat.zero_le _, Nat.zero_le _⟩

theorem foldlM_put_eq_ok_iff {ρ : Type} {put : ρ → Change} {catalog : ρ → String} {insert : Store → ρ → Store}
    (applies : ∀ s r, s.apply (put r) = (checkKey (catalog r)).map fun _ => insert s r) {rows : List ρ} {s t : Store} :
    rows.foldlM (fun s r => s.apply (put r)) s = .ok t ↔
      (∀ r ∈ rows, checkKey (catalog r) = .ok ()) ∧ t = rows.foldl insert s := by
  induction rows generalizing s with
  | nil =>
    rw [List.foldlM_nil, List.foldl_nil]
    exact ⟨fun h => ⟨by simp, by cases h; rfl⟩, fun h => by rw [h.2]; rfl⟩
  | cons r rows ih =>
    rw [List.foldlM_cons, applies, List.foldl_cons]
    cases hk : checkKey (catalog r) with
    | error f =>
      refine ⟨fun h => (by cases h), fun h => ?_⟩
      have held := h.1 r List.mem_cons_self
      rw [hk] at held
      cases held
    | ok =>
      refine (ih (s := insert s r)).trans ?_
      simp [hk]

theorem foldl_catalogs (rows : List CatalogEntry) (s : Store) :
    rows.foldl (fun s e => { s with catalogs := s.catalogs.insert e }) s =
      { s with catalogs := rows.foldl (fun t e => t.insert e) s.catalogs } := by
  induction rows generalizing s with
  | nil => rfl
  | cons e rows ih => exact ih _

theorem foldl_tracks (rows : List TrackEntry) (s : Store) :
    rows.foldl (fun s e => { s with tracks := s.tracks.insert e }) s =
      { s with tracks := rows.foldl (fun t e => t.insert e) s.tracks } := by
  induction rows generalizing s with
  | nil => rfl
  | cons e rows ih => exact ih _

end Store

namespace Archive

variable {h : Host} {directory : String}

/-- Loading gives the tables that the rows of the two files make, if all have keys that may be stored. -/
theorem load_eq_ok_iff {s : Store} :
    load directory h = .ok s ↔ ∃ catalogs tracks, readBoth directory h = (.ok catalogs, .ok tracks)
      ∧ (∀ e ∈ catalogs, checkKey e.catalog = .ok ()) ∧ (∀ e ∈ tracks, checkKey e.catalog = .ok ())
      ∧ s = { catalogs := .ofRows catalogs, tracks := .ofRows tracks } := by
  have putCatalogs (rows : List CatalogEntry) (s t : Store) :
      rows.foldlM (fun s e => s.apply (.putCatalog e)) s = .ok t ↔ _ :=
    Store.foldlM_put_eq_ok_iff fun s e => Store.apply_putCatalog e s
  have putTracks (rows : List TrackEntry) (s t : Store) :
      rows.foldlM (fun s e => s.apply (.putTrack e)) s = .ok t ↔ _ :=
    Store.foldlM_put_eq_ok_iff fun s e => Store.apply_putTrack e s
  rw [load, readBoth]
  cases readsCatalogs : (readTable directory catalogFile h : Except StoreFault (List CatalogEntry)) with
  | error f => simp [bind, Except.bind]
  | ok catalogs =>
    cases readsTracks : (readTable directory trackFile h : Except StoreFault (List TrackEntry)) with
    | error f => simp [bind, Except.bind]
    | ok tracks =>
      have both : ({ catalogs := .ofRows catalogs, tracks := .ofRows tracks } : Store) =
          tracks.foldl (fun s e => { s with tracks := s.tracks.insert e })
            (catalogs.foldl (fun s e => { s with catalogs := s.catalogs.insert e }) {}) := by
        rw [Store.foldl_catalogs, Store.foldl_tracks]
        rfl
      simp only [bind, Except.bind]
      constructor
      · intro loaded
        cases first : catalogs.foldlM (fun (s : Store) e => s.apply (.putCatalog e)) {} with
        | error f => rw [first] at loaded; cases loaded
        | ok s₁ =>
          rw [first] at loaded
          obtain ⟨keys, rfl⟩ := (putCatalogs catalogs {} s₁).1 first
          obtain ⟨trackKeys, rfl⟩ := (putTracks tracks _ s).1 loaded
          exact ⟨catalogs, tracks, rfl, keys, trackKeys, both.symm⟩
      · rintro ⟨_, _, same, keys, trackKeys, rfl⟩
        cases same
        rw [(putCatalogs catalogs {} _).2 ⟨keys, rfl⟩]
        exact (putTracks tracks _ _).2 ⟨trackKeys, both⟩

theorem forall_of_readTable {ρ : Type} [TableFile.RowForm ρ] {P : ρ → Prop} {file : String}
    (each : ∀ bs row rest, TableFile.RowForm.read bs = .ok (row, rest) → P row) {rows : List ρ}
    (read : readTable directory file h = .ok rows) : ∀ row ∈ rows, P row := by
  unfold readTable at read
  split at read
  · split at read
    · cases read
      simp
    · cases read
  · split at read
    · cases read
    · split at read
      · cases read
      · split at read
        · next decoded =>
          cases read
          exact TableFile.forall_of_decode each decoded
        · cases read

theorem atStart_of_load {s : Store} (loaded : load directory h = .ok s) : s.atStart = s := by
  obtain ⟨catalogs, tracks, -, -, -, rfl⟩ := load_eq_ok_iff.1 loaded
  rfl

theorem keysHold_of_load {s : Store} (loaded : load directory h = .ok s) : s.KeysHold := by
  obtain ⟨catalogs, tracks, -, catalogKeys, trackKeys, rfl⟩ := load_eq_ok_iff.1 loaded
  exact ⟨fun e he => catalogKeys e (Table.mem_of_mem_ofRows he), fun e he => trackKeys e (Table.mem_of_mem_ofRows he)⟩

theorem sized_of_load {s : Store} (loaded : load directory h = .ok s) : s.Sized := by
  obtain ⟨catalogs, tracks, reads, -, -, rfl⟩ := load_eq_ok_iff.1 loaded
  obtain ⟨readCatalogs, readTracks⟩ := Prod.ext_iff.1 reads
  exact ⟨fun e he => forall_of_readTable (fun _ _ _ => CatalogEntry.sized_of_read) readCatalogs e (Table.mem_of_mem_ofRows he),
    fun e he => forall_of_readTable (fun _ _ _ => TrackEntry.sized_of_read) readTracks e (Table.mem_of_mem_ofRows he)⟩

end Archive

end DiscCatalog
