import DiscCatalog.Proofs.Host.Paths

namespace DiscCatalog

namespace Host

def descend (h : Host) (links : Nat) (here : Location) (steps : List String) : Except Errno (Location × Nat) :=
  match steps with
  | [] => .ok (here, links)
  | "." :: rest => descend h links here rest
  | ".." :: rest => descend h links here.dropLast rest
  | name :: rest =>
    let there := here ++ [name]
    if maxName < name.utf8ByteSize then .error .nameTooLong
    else match h.content? there with
    | none => .error .noEntry
    | some (.link target) =>
      match links with
      | 0 => .error .linkLoop
      | links + 1 => descend h links (if isRooted target then [] else here) (pathSteps target ++ rest)
    | some .directory => descend h links there rest
    | some _ => .error .notDirectory
termination_by (links, steps.length)

theorem walkFrom_cons (h : Host) (follow : Bool) (links : Nat) (here : Location) {piece : String} (rest : List String)
    (notHere : piece ≠ ".") (notAbove : piece ≠ "..") :
    h.walkFrom follow links here (piece :: rest) =
      if maxName < piece.utf8ByteSize then .error .nameTooLong
      else match h.content? (here ++ [piece]) with
      | none => if rest.isEmpty then .ok (here ++ [piece]) else .error .noEntry
      | some (.link target) =>
        if rest.isEmpty ∧ ¬ follow then .ok (here ++ [piece])
        else match links with
          | 0 => .error .linkLoop
          | links + 1 => h.walkFrom follow links (if isRooted target then [] else here) (pathSteps target ++ rest)
      | some .directory => h.walkFrom follow links (here ++ [piece]) rest
      | some _ => if rest.isEmpty then .ok (here ++ [piece]) else .error .notDirectory := by
  rw [walkFrom] <;> first | rfl | exact notHere | exact notAbove

theorem descend_cons (h : Host) (links : Nat) (here : Location) {piece : String} (rest : List String)
    (notHere : piece ≠ ".") (notAbove : piece ≠ "..") :
    h.descend links here (piece :: rest) =
      if maxName < piece.utf8ByteSize then .error .nameTooLong
      else match h.content? (here ++ [piece]) with
      | none => .error .noEntry
      | some (.link target) =>
        match links with
        | 0 => .error .linkLoop
        | links + 1 => h.descend links (if isRooted target then [] else here) (pathSteps target ++ rest)
      | some .directory => h.descend links (here ++ [piece]) rest
      | some _ => .error .notDirectory := by
  rw [descend]
  · exact notHere
  · exact notAbove

/-- A walk with one more step goes down to the directory before it first. -/
theorem walkFrom_append (h : Host) (follow : Bool) (links : Nat) (here : Location) (steps : List String)
    (name : String) :
    h.walkFrom follow links here (steps ++ [name]) =
      match h.descend links here steps with
      | .error e => .error e
      | .ok (place, links) => h.walkFrom follow links place [name] := by
  -- Since a step is left, the walk follows every link before it, whatever `follow` says.
  fun_induction descend h links here steps with
  | case1 => rfl
  | case2 links here rest ih => rw [List.cons_append, walkFrom, ih]
  | case3 links here rest ih => rw [List.cons_append, walkFrom, ih]
  | case4 links here piece rest notHere notAbove long =>
    rw [List.cons_append, walkFrom_cons h _ _ _ _ notHere notAbove, if_pos long]
  | case5 links here piece rest notHere notAbove there short absent =>
    rw [List.cons_append, walkFrom_cons h _ _ _ _ notHere notAbove, if_neg short]
    simp only [there] at absent
    simp [absent]
  | case6 here piece rest notHere notAbove there short target link =>
    rw [List.cons_append, walkFrom_cons h _ _ _ _ notHere notAbove, if_neg short]
    simp only [there] at link
    simp [link]
  | case7 here piece rest notHere notAbove there short target link links ih =>
    rw [List.cons_append, walkFrom_cons h _ _ _ _ notHere notAbove, if_neg short]
    simp only [there] at link
    simp only [dite_eq_ite, List.append_assoc] at ih
    simp [link, ih]
  | case8 links here piece rest notHere notAbove there short directory ih =>
    rw [List.cons_append, walkFrom_cons h _ _ _ _ notHere notAbove, if_neg short]
    simp only [there] at directory ih ⊢
    simp only [directory, ih]
  | case9 links here piece rest notHere notAbove there short content noLink noDirectory found =>
    rw [List.cons_append, walkFrom_cons h _ _ _ _ notHere notAbove, if_neg short]
    simp only [there] at found
    cases content <;> simp_all

def Retains (h h' : Host) : Prop :=
  ∀ place content, (content = .directory ∨ ∃ target, content = .link target) →
    h.content? place = some content → h'.content? place = some content

theorem descend_retained {h h' : Host} (kept : h.Retains h') {links : Nat} {here : Location} {steps : List String}
    {way : Location × Nat} (down : h.descend links here steps = .ok way) :
    h'.descend links here steps = .ok way := by
  revert down
  fun_induction descend h links here steps with
  | case1 => exact fun down => by rw [descend]; exact down
  | case2 links here rest ih => exact fun down => by rw [descend]; exact ih down
  | case3 links here rest ih => exact fun down => by rw [descend]; exact ih down
  | case4 | case5 | case6 | case9 => exact fun down => by cases down
  | case7 here piece rest notHere notAbove there short target link links ih =>
    intro down
    have still := kept _ _ (.inr ⟨target, rfl⟩) link
    simp only [there] at still
    rw [descend_cons _ _ _ _ notHere notAbove, if_neg short]
    simp only [dite_eq_ite] at ih
    simp only [still]
    exact ih down
  | case8 links here piece rest notHere notAbove there short directory ih =>
    intro down
    have still := kept _ _ (.inl rfl) directory
    simp only [there] at still
    rw [descend_cons _ _ _ _ notHere notAbove, if_neg short]
    simp only [still]
    exact ih down

def enter (h : Host) (directory : String) : Except Errno (Location × Nat) :=
  h.descend maxLinks (if isRooted directory then [] else h.directory) (pathNames directory)

theorem enter_retained {h h' : Host} (kept : h.Retains h') (same : h'.directory = h.directory) {directory : String}
    {way : Location × Nat} (entered : h.enter directory = .ok way) : h'.enter directory = .ok way := by
  rw [enter, same]
  exact descend_retained kept entered

structure Walkable (path : String) : Prop where
  nonempty : path ≠ ""
  noNul : '\x00' ∉ path.toList
  short : path.utf8ByteSize ≤ maxPath

variable {directory name : String}

theorem enter_of_plain {h : Host} (plain : PlainName name) (short : name.utf8ByteSize ≤ maxName)
    (there : h.content? (h.directory ++ [name]) = some .directory) :
    h.enter name = .ok (h.directory ++ [name], maxLinks) := by
  rw [enter, plain.pathNames_eq, if_neg (by simp [plain.isRooted_eq]), descend_cons _ _ _ _ plain.notHere plain.notAbove,
    if_neg (Nat.not_lt.2 short)]
  simp only [there]
  rw [descend]

theorem walkable_joinPath (plain : PlainName name) (noNul : '\x00' ∉ directory.toList)
    (short : directory.utf8ByteSize + 1 + name.utf8ByteSize ≤ maxPath) : Walkable (joinPath directory name) := by
  obtain ⟨front, same, size, clean, -⟩ := exists_front directory
  rw [same name plain]
  refine ⟨fun none => plain.nonempty (String.append_eq_empty_iff.1 none).2, ?_, ?_⟩
  · rw [String.toList_append, List.mem_append]
    exact fun h => h.elim (clean noNul) plain.noNul
  · rw [String.utf8ByteSize_append]
    omega

theorem Walkable.shorter {other : String} (walkable : Walkable (joinPath directory name)) (plain : PlainName name)
    (also : PlainName other) (short : other.utf8ByteSize ≤ name.utf8ByteSize) :
    Walkable (joinPath directory other) := by
  obtain ⟨front, same, -, -, -⟩ := exists_front directory
  rw [same name plain] at walkable
  rw [same other also]
  refine ⟨fun none => also.nonempty (String.append_eq_empty_iff.1 none).2, ?_, ?_⟩
  · have noNul := walkable.noNul
    rw [String.toList_append, List.mem_append, not_or] at noNul ⊢
    exact ⟨noNul.1, also.noNul⟩
  · have size := walkable.short
    rw [String.utf8ByteSize_append] at size ⊢
    omega

theorem walk_joinPath (h : Host) (plain : PlainName name) (walkable : Walkable (joinPath directory name))
    (follow : Bool) :
    h.walk follow (joinPath directory name) =
      match h.enter directory with
      | .error e => .error e
      | .ok (place, links) => h.walkFrom follow links place [name] := by
  rw [walk, if_neg walkable.nonempty, if_neg walkable.noNul, if_neg (Nat.not_lt.2 walkable.short)]
  dsimp only
  rw [plain.isRooted_joinPath, plain.pathSteps_joinPath, walkFrom_append]
  rfl

theorem walkable_of_walk {h : Host} {follow : Bool} {path : String} {place : Location}
    (walked : h.walk follow path = .ok place) : Walkable path := by
  unfold walk at walked
  split at walked
  · cases walked
  split at walked
  · cases walked
  split at walked
  · cases walked
  next some noNul short => exact ⟨some, noNul, Nat.not_lt.1 short⟩

theorem walkFrom_last (h : Host) (plain : PlainName name) (short : name.utf8ByteSize ≤ maxName) (links : Nat)
    (place : Location) (follow : Bool)
    (noLink : follow = true → ∀ target, h.content? (place ++ [name]) ≠ some (.link target)) :
    h.walkFrom follow links place [name] = .ok (place ++ [name]) := by
  rw [walkFrom_cons h _ _ _ _ plain.notHere plain.notAbove, if_neg (Nat.not_lt.2 short)]
  cases found : h.content? (place ++ [name]) with
  | none => rfl
  | some content =>
    cases content with
    | link target =>
      cases follow with
      | true => exact absurd found (noLink rfl target)
      | false => rfl
    | directory => rw [walkFrom]
    | file | pipe | sink | full => rfl

/-- The way into a directory goes through to the file of a name, which is no link if links are followed. -/
theorem walk_of_enter {h : Host} {place : Location} {links : Nat} (entered : h.enter directory = .ok (place, links))
    (plain : PlainName name) (walkable : Walkable (joinPath directory name)) (short : name.utf8ByteSize ≤ maxName)
    (follow : Bool) (noLink : follow = true → ∀ target, h.content? (place ++ [name]) ≠ some (.link target)) :
    h.walk follow (joinPath directory name) = .ok (place ++ [name]) := by
  rw [walk_joinPath h plain walkable, entered]
  exact walkFrom_last h plain short links place follow noLink

theorem enter_of_walk {h : Host} {follow : Bool} {there : Location} (plain : PlainName name)
    (walked : h.walk follow (joinPath directory name) = .ok there) :
    Walkable (joinPath directory name) ∧ name.utf8ByteSize ≤ maxName ∧
      ∃ place links, h.enter directory = .ok (place, links) ∧
        h.walk false (joinPath directory name) = .ok (place ++ [name]) := by
  have walkable := walkable_of_walk walked
  rw [walk_joinPath h plain walkable] at walked
  cases entered : h.enter directory with
  | error e => rw [entered] at walked; cases walked
  | ok way =>
    obtain ⟨place, links⟩ := way
    rw [entered] at walked
    have short : name.utf8ByteSize ≤ maxName := by
      refine Nat.not_lt.1 fun long => ?_
      dsimp only at walked
      rw [walkFrom_cons h _ _ _ _ plain.notHere plain.notAbove, if_pos long] at walked
      cases walked
    exact ⟨walkable, short, place, links, entered ▸ rfl,
      walk_of_enter entered plain walkable short false fun h => by cases h⟩

end Host

end DiscCatalog
