import DiscCatalog.Host.Walk
import DiscCatalog.Proofs.Text

namespace DiscCatalog

structure PlainName (name : String) : Prop where
  nonempty : name ≠ ""
  noSlash : '/' ∉ name.toList
  noNul : '\x00' ∉ name.toList
  notHere : name ≠ "."
  notAbove : name ≠ ".."

theorem pathNames_append (a b : String) : pathNames (a ++ "/" ++ b) = pathNames a ++ pathNames b := by
  have slash : (a ++ "/" ++ b).toList = a.toList ++ '/' :: b.toList := by
    simp [String.toList_append]
  simp only [pathNames, pathPieces, slash, List.splitOn_append_cons_self, List.map_append, List.filter_append]

theorem pathNames_empty : pathNames "" = [] := by
  simp [pathNames, pathPieces]

theorem eq_append_of_endsInSlash {path : String} (h : endsInSlash path = true) : ∃ front, path = front ++ "/" := by
  have last : path.toList.getLast? = some '/' := by simpa [endsInSlash] using h
  obtain ⟨front, whole⟩ := List.getLast?_eq_some_iff.1 last
  refine ⟨String.ofList front, String.toList_inj.1 ?_⟩
  rw [whole, String.toList_append, String.toList_ofList]
  rfl

namespace PlainName

variable {name : String} (h : PlainName name)

include h

theorem pathNames_eq : pathNames name = [name] := by
  have single : name.toList.splitOn '/' = [name.toList] := List.splitOn_eq_singleton h.noSlash
  simp [pathNames, pathPieces, single, h.nonempty]

theorem isRooted_eq : isRooted name = false := by
  simp only [isRooted, decide_eq_false_iff_not]
  exact fun first => h.noSlash (List.mem_of_mem_head? first)

theorem endsInSlash_append (front : String) : endsInSlash (front ++ name) = false := by
  have some : name.toList ≠ [] := fun none => h.nonempty (String.toList_eq_nil_iff.1 none)
  simp only [endsInSlash, String.toList_append, List.getLast?_append, decide_eq_false_iff_not]
  rw [List.getLast?_eq_some_getLast some, Option.some_or]
  intro last
  exact h.noSlash (Option.some.inj last ▸ List.getLast_mem some)

/-- The path of a file inside a directory leads through the directory's names to the file's own. -/
theorem pathSteps_joinPath (directory : String) : pathSteps (joinPath directory name) = pathNames directory ++ [name] := by
  unfold joinPath
  split
  · next bare =>
    have here : directory = "" := bare.resolve_left (by simp [h.isRooted_eq])
    subst here
    have ends := h.endsInSlash_append ""
    rw [String.empty_append] at ends
    rw [pathSteps, ends, pathNames_empty, h.pathNames_eq]
    rfl
  · split
    · next slash =>
      obtain ⟨front, rfl⟩ := eq_append_of_endsInSlash slash
      have trimmed : pathNames (front ++ "/") = pathNames front := by
        have both := pathNames_append front ""
        rwa [String.append_empty, pathNames_empty, List.append_nil] at both
      rw [pathSteps, h.endsInSlash_append, pathNames_append, h.pathNames_eq, trimmed]
      rfl
    · rw [pathSteps, h.endsInSlash_append, pathNames_append, h.pathNames_eq]
      rfl

end PlainName

theorem exists_front (directory : String) :
    ∃ front : String, (∀ name, PlainName name → joinPath directory name = front ++ name)
      ∧ front.utf8ByteSize ≤ directory.utf8ByteSize + 1 ∧ ('\x00' ∉ directory.toList → '\x00' ∉ front.toList)
      ∧ front.toList.head? = directory.toList.head? := by
  by_cases here : directory = ""
  · subst here
    refine ⟨"", fun name plain => ?_, by simp, fun h => h, rfl⟩
    rw [joinPath, if_pos (.inr rfl), String.empty_append]
  · have bare : ∀ name, PlainName name → ¬ (isRooted name = true ∨ directory = "") := by
      intro name plain
      simp [plain.isRooted_eq, here]
    have some : directory.toList ≠ [] := fun none => here (String.toList_eq_nil_iff.1 none)
    by_cases slash : endsInSlash directory = true
    · refine ⟨directory, fun name plain => ?_, by simp, fun h => h, rfl⟩
      rw [joinPath, if_neg (bare name plain), if_pos slash]
    · refine ⟨directory ++ "/", fun name plain => ?_, ?_, ?_, ?_⟩
      · rw [joinPath, if_neg (bare name plain), if_neg slash]
      · rw [String.utf8ByteSize_append]
        exact Nat.le_refl _
      · simp [String.toList_append]
      · rw [String.toList_append, List.head?_append, List.head?_eq_some_head some, Option.some_or]

theorem PlainName.eq_of_joinPath {name other directory : String} (h : PlainName name) (h' : PlainName other)
    (same : joinPath directory name = joinPath directory other) : name = other := by
  have steps := congrArg pathSteps same
  rw [h.pathSteps_joinPath, h'.pathSteps_joinPath] at steps
  exact (List.cons.inj (List.append_cancel_left steps)).1

theorem PlainName.isRooted_joinPath {name : String} (h : PlainName name) (directory : String) :
    isRooted (joinPath directory name) = isRooted directory := by
  obtain ⟨front, same, -, -, head⟩ := exists_front directory
  have notFirst : name.toList.head? ≠ some '/' := by simpa [isRooted] using h.isRooted_eq
  rw [isRooted, isRooted, same name h, String.toList_append, List.head?_append, head]
  cases directory.toList.head? with
  | none => simp [notFirst]
  | some c => rw [Option.some_or]

theorem PlainName.joinPath_append {name : String} (h : PlainName name) (directory suffix : String) :
    joinPath directory (name ++ suffix) = joinPath directory name ++ suffix := by
  have rooted : isRooted (name ++ suffix) = isRooted name := by
    have some : name.toList ≠ [] := fun none => h.nonempty (String.toList_eq_nil_iff.1 none)
    simp only [isRooted, String.toList_append, List.head?_append, List.head?_eq_some_head some, Option.some_or]
  unfold joinPath
  rw [rooted]
  split
  · rfl
  · split <;> simp only [String.append_assoc]

def asideName (file : String) (owner : Nat) : String := file ++ ("." ++ toString owner ++ ".tmp")

theorem joinPath_asideName {file : String} (h : PlainName file) (directory : String) (owner : Nat) :
    s!"{joinPath directory file}.{owner}.tmp" = joinPath directory (asideName file owner) := by
  rw [asideName, h.joinPath_append]
  change joinPath directory file ++ "." ++ toString owner ++ ".tmp" = _
  simp only [String.append_assoc]

theorem plainName_asideName {file : String} (h : PlainName file) (owner : Nat) :
    PlainName (asideName file owner) := by
  have digits : ∀ c ∈ (toString owner).toList, c.isDigit := fun c hc => Text.isDigit_of_mem_repr hc
  have chars : (asideName file owner).toList = file.toList ++ '.' :: ((toString owner).toList ++ ".tmp".toList) := by
    simp [asideName, String.toList_append]
  have long : ∀ short : String, short.toList.length ≤ 2 → asideName file owner ≠ short := by
    rintro short size rfl
    rw [chars] at size
    simp at size
    omega
  have plain : ∀ c, ¬ c.isDigit → c ≠ '.' → c ∉ ".tmp".toList → c ∉ file.toList → c ∉ (asideName file owner).toList := by
    intro c digit dot tail front
    rw [chars, List.mem_append, List.mem_cons, List.mem_append]
    rintro (h | h | h | h)
    · exact front h
    · exact dot h
    · exact digit (digits c h)
    · exact tail h
  exact ⟨long "" (by decide), plain _ (by decide) (by decide) (by decide) h.noSlash,
    plain _ (by decide) (by decide) (by decide) h.noNul, long "." (by decide), long ".." (by decide)⟩

end DiscCatalog
