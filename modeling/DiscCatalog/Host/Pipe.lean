namespace DiscCatalog

/-- A page of a pipe: how many bytes were put on it so far, and those not yet read. -/
structure Page where
  filled : Nat
  unread : List UInt8
deriving DecidableEq, Inhabited

structure PipeBuffer where
  pages : List Page := []
deriving DecidableEq, Inhabited

namespace PipeBuffer

def pageSize : Nat := 4096

def usualPages : Nat := 16

def content (b : PipeBuffer) : List UInt8 := b.pages.flatMap (·.unread)

def filled : List Page → Nat
  | [] => 0
  | page :: rest => page.filled + filled rest

def appendLast (bs : List UInt8) : List Page → Option (List Page)
  | [] => none
  | [page] =>
    if page.filled + bs.length ≤ pageSize then some [⟨page.filled + bs.length, page.unread ++ bs⟩]
    else none
  | page :: next :: rest => (appendLast bs (next :: rest)).map (page :: ·)

def freshPages : (room : Nat) → List UInt8 → List Page
  | 0, _ => []
  | _, [] => []
  | room + 1, bs =>
    let here := bs.take pageSize
    ⟨here.length, here⟩ :: freshPages room (bs.drop pageSize)

def write (maxPages : Nat) (bs : List UInt8) (b : PipeBuffer) : Nat × PipeBuffer :=
  let head := bs.take (bs.length % pageSize)
  let merged := if head.isEmpty then none else appendLast head b.pages
  let pages := merged.getD b.pages
  let rest := if merged.isSome then bs.drop head.length else bs
  let fresh := freshPages (maxPages - pages.length) rest
  ((if merged.isSome then head.length else 0) + filled fresh, ⟨pages ++ fresh⟩)

/-- Takes up to `room` bytes off pages; a page that was read to its end is gone. -/
def takePages : (room : Nat) → List Page → List UInt8 × List Page
  | _, [] => ([], [])
  | room, page :: rest =>
    if page.unread.length ≤ room then
      let (bs, pages) := takePages (room - page.unread.length) rest
      (page.unread ++ bs, pages)
    else (page.unread.take room, { page with unread := page.unread.drop room } :: rest)

def read (room : Nat) (b : PipeBuffer) : List UInt8 × PipeBuffer :=
  let (bs, pages) := takePages room b.pages
  (bs, ⟨pages⟩)

theorem takePages_flatMap (room : Nat) (pages : List Page) :
    (takePages room pages).1 = (pages.flatMap (·.unread)).take room ∧
      (takePages room pages).2.flatMap (·.unread) = (pages.flatMap (·.unread)).drop room := by
  induction pages generalizing room with
  | nil => simp [takePages]
  | cons page rest ih =>
    unfold takePages
    split
    · next whole =>
      obtain ⟨taken, left⟩ := ih (room - page.unread.length)
      simp only [taken, left, List.flatMap_cons]
      rw [List.take_append, List.drop_append, List.take_of_length_le whole,
        List.drop_eq_nil_of_le whole]
      simp
    · next part =>
      have room_le : room ≤ page.unread.length := by omega
      simp [List.take_append, List.drop_append, Nat.sub_eq_zero_of_le room_le]

theorem read_fst (room : Nat) (b : PipeBuffer) : (b.read room).1 = b.content.take room :=
  (takePages_flatMap room b.pages).1

theorem content_read (room : Nat) (b : PipeBuffer) : (b.read room).2.content = b.content.drop room :=
  (takePages_flatMap room b.pages).2

theorem flatMap_appendLast {bs : List UInt8} {pages more : List Page}
    (h : appendLast bs pages = some more) :
    more.flatMap (·.unread) = pages.flatMap (·.unread) ++ bs := by
  induction pages generalizing more with
  | nil => simp [appendLast] at h
  | cons page rest ih =>
    cases rest with
    | nil =>
      simp only [appendLast] at h
      split at h
      · cases h; simp
      · cases h
    | cons next rest =>
      obtain ⟨tail, found, rfl⟩ := Option.map_eq_some_iff.1 h
      simp [ih found]

theorem flatMap_freshPages (room : Nat) (bs : List UInt8) :
    (freshPages room bs).flatMap (·.unread) = bs.take (filled (freshPages room bs)) := by
  fun_induction freshPages room bs with
  | case1 => simp [filled]
  | case2 => simp [filled]
  | case3 room bs _ here ih =>
    have exact_rest : bs.drop pageSize = bs.drop here.length ∨ freshPages room (bs.drop pageSize) = [] := by
      by_cases long : pageSize ≤ bs.length
      · left; simp [here, Nat.min_eq_left long]
      · right
        have nothing : bs.drop pageSize = [] := List.drop_eq_nil_of_le (by omega)
        rw [nothing]
        cases room <;> rfl
    simp only [List.flatMap_cons, filled, ih]
    rw [List.take_add]
    obtain same | none_left := exact_rest
    · rw [same]
      simp [here]
    · rw [none_left]
      simp [here, filled]

theorem content_write (maxPages : Nat) (bs : List UInt8) (b : PipeBuffer) :
    (b.write maxPages bs).2.content = b.content ++ bs.take (b.write maxPages bs).1 := by
  unfold write content
  simp only
  split
  · simp [flatMap_freshPages]
  · next some_head =>
    cases found : appendLast (bs.take (bs.length % pageSize)) b.pages with
    | none => simp [flatMap_freshPages]
    | some pages =>
      have head_length : (bs.take (bs.length % pageSize)).length = bs.length % pageSize := by
        rw [List.length_take]
        exact Nat.min_eq_left (Nat.mod_le _ _)
      simp [flatMap_appendLast found, flatMap_freshPages, List.take_add, head_length]

end PipeBuffer

end DiscCatalog
