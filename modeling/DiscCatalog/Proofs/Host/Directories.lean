import DiscCatalog.Proofs.Host.Files

namespace DiscCatalog

namespace Host

variable {h : Host} {path : String} {place here : Location} {links left : Nat} {steps : List String}

theorem walkFrom_of_descend (follow : Bool) (down : h.descend links here steps = .ok (place, left))
    (there : (h.content? place).isSome) :
    ∃ p, h.walkFrom follow links here steps = .ok p ∧ (h.content? p).isSome ∧ (follow = true → p = place) := by
  revert down
  fun_induction descend h links here steps with
  | case1 links here =>
    intro down
    cases down
    exact ⟨place, by rw [walkFrom], there, fun _ => rfl⟩
  | case2 links here rest ih =>
    intro down
    rw [walkFrom]
    exact ih down
  | case3 links here rest ih =>
    intro down
    rw [walkFrom]
    exact ih down
  | case4 | case5 | case6 | case9 => exact fun down => by cases down
  | case7 here piece rest notHere notAbove next short target link links ih =>
    intro down
    simp only [next] at link
    simp only [dite_eq_ite] at ih
    rw [walkFrom_cons h _ _ _ _ notHere notAbove, if_neg short]
    simp only [link]
    by_cases stop : rest.isEmpty = true ∧ ¬ follow = true
    · rw [if_pos stop]
      exact ⟨_, rfl, by rw [link]; rfl, fun h => absurd h stop.2⟩
    · rw [if_neg stop]
      exact ih down
  | case8 links here piece rest notHere notAbove next short directory ih =>
    intro down
    simp only [next] at directory ih
    rw [walkFrom_cons h _ _ _ _ notHere notAbove, if_neg short]
    simp only [directory]
    exact ih down

theorem walk_of_enter_directory (walkable : Walkable path) (entered : h.enter path = .ok (place, left))
    (there : (h.content? place).isSome) (follow : Bool) :
    ∃ p, h.walk follow path = .ok p ∧ (h.content? p).isSome ∧ (follow = true → p = place) := by
  rw [walk, if_neg walkable.nonempty, if_neg walkable.noNul, if_neg (Nat.not_lt.2 walkable.short)]
  dsimp only
  rw [enter] at entered
  rw [pathSteps]
  by_cases slash : endsInSlash path = true
  · refine ⟨place, ?_, there, fun _ => rfl⟩
    rw [if_pos slash, walkFrom_append, entered]
    dsimp only
    rw [walkFrom, walkFrom]
  · rw [if_neg slash]
    exact walkFrom_of_descend follow entered there

theorem nodeOf?_isSome_of_content? (found : (h.content? place).isSome) : (h.nodeOf? place).isSome := by
  rw [content?, node?] at found
  cases at? : h.nodeOf? place with
  | none => rw [at?] at found; cases found
  | some => rfl

/-- A path is what is left of it without the slashes at its end, and those, or it is made of slashes alone. -/
theorem trimSlashes_eq (path : String) :
    trimSlashes path = path ∨ ∃ n, path = trimSlashes path ++ String.ofList (List.replicate n '/')
      ∧ trimSlashes path ≠ "" := by
  have whole := congrArg List.reverse (List.takeWhile_append_dropWhile (p := (· = '/')) (l := path.toList.reverse))
  have slashes : (path.toList.reverse.takeWhile (· = '/')).reverse = List.replicate _ '/' :=
    List.eq_replicate_of_mem fun c hc => by
      simpa using List.all_eq_true.1 List.all_takeWhile c (List.mem_reverse.1 hc)
  rw [List.reverse_append, List.reverse_reverse, slashes] at whole
  by_cases none : (path.toList.reverse.dropWhile (· = '/')).reverse.isEmpty = true
  · exact .inl (by rw [trimSlashes, if_pos none])
  · have kept : trimSlashes path = String.ofList (path.toList.reverse.dropWhile (· = '/')).reverse := by
      rw [trimSlashes, if_neg none]
    refine .inr ⟨(path.toList.reverse.takeWhile (· = '/')).reverse.length, String.toList_inj.1 ?_, ?_⟩
    · rw [kept, String.toList_append, String.toList_ofList, String.toList_ofList]
      exact whole.symm
    · rw [kept]
      intro empty
      rw [← String.toList_eq_nil_iff, String.toList_ofList] at empty
      exact none (List.isEmpty_iff.2 empty)

theorem pathNames_slashes (path : String) (n : Nat) :
    pathNames (path ++ String.ofList (List.replicate n '/')) = pathNames path := by
  induction n with
  | zero => rw [List.replicate_zero, String.ofList_nil, String.append_empty]
  | succ n ih =>
    have last : path ++ String.ofList (List.replicate (n + 1) '/') =
        path ++ String.ofList (List.replicate n '/') ++ "/" ++ "" := by
      rw [List.replicate_succ', String.ofList_append, String.append_empty, String.append_assoc]
    rw [last, pathNames_append, pathNames_empty, List.append_nil, ih]

theorem pathNames_trimSlashes (path : String) : pathNames (trimSlashes path) = pathNames path := by
  obtain same | ⟨n, whole, -⟩ := trimSlashes_eq path
  · rw [same]
  · rw [← pathNames_slashes (trimSlashes path) n, ← whole]

theorem isRooted_trimSlashes (path : String) : isRooted (trimSlashes path) = isRooted path := by
  obtain same | ⟨n, whole, some⟩ := trimSlashes_eq path
  · rw [same]
  · have first : (trimSlashes path).toList ≠ [] := fun none => some (String.toList_eq_nil_iff.1 none)
    rw [isRooted, isRooted]
    conv_rhs => rw [whole, String.toList_append, List.head?_append, List.head?_eq_some_head first, Option.some_or]
    rw [List.head?_eq_some_head first]

theorem walkable_trimSlashes (walkable : Walkable path) : Walkable (trimSlashes path) := by
  obtain same | ⟨n, whole, some⟩ := trimSlashes_eq path
  · rwa [same]
  · refine ⟨some, fun nul => walkable.noNul ?_, ?_⟩
    · rw [whole, String.toList_append]
      exact List.mem_append_left _ nul
    · have short := walkable.short
      rw [whole, String.utf8ByteSize_append] at short
      exact Nat.le_trans (Nat.le_add_right _ _) short

theorem enter_trimSlashes : h.enter (trimSlashes path) = h.enter path := by
  rw [enter, enter, isRooted_trimSlashes, pathNames_trimSlashes]

theorem isDirectory_of_enter (walkable : Walkable path) (entered : h.enter path = .ok (place, left))
    (directory : h.content? place = some .directory) : h.isDirectory path = true := by
  obtain ⟨p, walked, -, ends⟩ := walk_of_enter_directory walkable entered (by rw [directory]; rfl) true
  obtain ⟨node, found, content⟩ := Option.map_eq_some_iff.1 directory
  obtain ⟨number, at?, there⟩ := nodeOf?_of_node? found
  rw [ends rfl] at walked
  rw [isDirectory, find_of_walk walked at? there]
  simpa using content

theorem makeDirectory_existing (walkable : Walkable path) (entered : h.enter path = .ok (place, left))
    (there : (h.content? place).isSome) : h.makeDirectory path = (.error .fileExists, h) := by
  obtain ⟨p, walked, taken, -⟩ :=
    walk_of_enter_directory (walkable_trimSlashes walkable) (enter_trimSlashes.trans entered) there false
  rw [makeDirectory, make, walked]
  dsimp only
  rw [if_pos (nodeOf?_isSome_of_content? taken)]

/-- Making a directory with those above it does nothing where there is one. -/
theorem makeDirectories_existing (fits : path = "" ∨ Walkable path)
    (entered : h.enter path = .ok (place, left)) (directory : h.content? place = some .directory) :
    h.makeDirectories path = (.ok (), h) := by
  rw [makeDirectories, lineage]
  obtain rfl | walkable := fits
  · rw [makeDirectoriesAlong]
  · rw [makeDirectoriesAlong, makeDirectory_existing walkable entered (by rw [directory]; rfl)]
    · dsimp only
      rw [if_pos (by decide), isDirectory_of_enter walkable entered directory]
      rfl
    · exact walkable.nonempty

end Host

end DiscCatalog
