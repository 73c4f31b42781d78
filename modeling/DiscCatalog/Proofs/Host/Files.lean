import DiscCatalog.Host.File
import DiscCatalog.Proofs.Host.Nodes

namespace DiscCatalog

namespace Host

variable {h : Host} {path : String} {place : Location} {number : Nat} {node : Node}

theorem find_of_walk {follow : Bool} (walked : h.walk follow path = .ok place) (at? : h.nodeOf? place = some number)
    (there : h.nodes[number]? = some node) : h.find follow path = .ok (place, number, node) := by
  unfold find
  simp only [walked, bind, Except.bind, at?, there]

theorem find_of_walk_none {follow : Bool} (walked : h.walk follow path = .ok place) (free : h.nodeOf? place = none) :
    h.find follow path = .error .noEntry := by
  unfold find
  simp only [walked, bind, Except.bind, free]

def adding (h : Host) (x : Option Handle) : Host := { h with handles := h.handles ++ [x] }

theorem handle?_adding (x : Option Handle) : (h.adding x).handle? h.handles.length = x := by
  simp [handle?, adding]

theorem setHandle_adding (x : Option Handle) (y : Handle) :
    (h.adding x).setHandle h.handles.length y = h.adding (some y) := by
  simp [setHandle, adding]

def removing (h : Host) (i : Nat) : Host := { h with handles := h.handles.set i none }

theorem handle?_removing {i j : Nat} : (h.removing i).handle? j = if j = i then none else h.handle? j := by
  rw [handle?, removing, List.getElem?_set]
  by_cases same : i = j
  · rw [if_pos same, if_pos same.symm]
    split <;> rfl
  · rw [if_neg same, if_neg (Ne.symm same)]
    rfl

theorem handle?_of_removing {i j : Nat} {x : Handle} (found : (h.removing i).handle? j = some x) :
    h.handle? j = some x ∧ j ≠ i := by
  rw [handle?_removing] at found
  split at found
  · cases found
  · next other => exact ⟨found, other⟩

theorem close_file {x : Handle} {i : Nat} {bytes : List UInt8} (taken : h.handle? i = some x)
    (file : h.contentOf? x.node = some (.file bytes)) : h.close i = h.removing i := by
  have still : (h.removing i).contentOf? x.node = some (.file bytes) := file
  rw [removing] at still ⊢
  unfold close
  rw [taken]
  simp only [still]

theorem close_adding {x : Handle} {bytes : List UInt8} (file : h.contentOf? x.node = some (.file bytes)) :
    (h.adding (some x)).close h.handles.length = h.adding none := by
  rw [close_file (handle?_adding (some x)) file]
  simp [adding, removing]

theorem write_adding {x : Handle} (start : x.offset = 0) (empty : h.contentOf? x.node = some (.file []))
    (bytes : List UInt8) :
    (h.adding (some x)).write h.handles.length bytes =
      (.ok bytes.length, (h.setContent x.node (.file bytes)).adding (some { x with offset := bytes.length })) := by
  have content : (h.adding (some x)).contentOf? x.node = some (.file []) := empty
  have whole : overwrite [] 0 bytes = bytes := by simp [overwrite]
  unfold write
  rw [handle?_adding]
  simp only [content, start, whole, Nat.zero_add]
  exact Prod.ext rfl (setHandle_adding (h := h.setContent x.node (.file bytes)) (some x) _)

theorem contentOf?_setContent (number : Nat) (content : Content) :
    (h.setContent number content).contentOf? number = (h.contentOf? number).map fun _ => content := by
  unfold contentOf? setContent
  rw [List.getElem?_modify]
  cases h.nodes[number]? <;> simp

theorem setContent_setContent (number : Nat) (first second : Content) :
    (h.setContent number first).setContent number second = h.setContent number second := by
  simp only [setContent, List.modify_modify_eq]
  rfl

theorem setContent_create (first second : Content) (permissions : Nat) :
    (h.create place ⟨first, permissions⟩).setContent h.nodes.length second =
      h.create place ⟨second, permissions⟩ := by
  unfold setContent create
  rw [List.modify_eq_take_cons_drop (by simp)]
  simp

theorem openPath_eq (walked : h.walk true path = .ok place) (at? : h.nodeOf? place = some number)
    (there : h.nodes[number]? = some node) {bytes : List UInt8} (file : node.content = .file bytes) (access : Access) :
    h.openPath path access true =
      if allows node access then (.ok h.handles.length, h.adding (some { node := number, access }))
      else (.error .accessDenied, h) := by
  unfold openPath
  simp only [find_of_walk walked at? there, file]
  cases allows node access <;> rfl

theorem openPath_directory (walked : h.walk true path = .ok place) (at? : h.nodeOf? place = some number)
    (there : h.nodes[number]? = some node) (directory : node.content = .directory) :
    h.openPath path .write true = (.error .isDirectory, h) := by
  unfold openPath
  simp only [find_of_walk walked at? there, directory, true_and, ↓reduceIte]
  rfl

section Creating

variable {e : Errno} {x : Handle} {truncate : Bool}

theorem createFile_unreached (nowhere : h.walk true path = .error e) : h.createFile path truncate = (.error e, h) := by
  rw [createFile, nowhere]

theorem createFile_barred (walked : h.walk true path = .ok place) (free : h.nodeOf? place = none)
    (barred : h.mayChange place = false) : h.createFile path truncate = (.error .accessDenied, h) := by
  simp only [createFile, walked, free, barred, Option.isSome_none, Bool.false_eq_true, ↓reduceIte]

theorem createFile_free (walked : h.walk true path = .ok place) (free : h.nodeOf? place = none)
    (mayChange : h.mayChange place = true) (truncate : Bool) :
    h.createFile path truncate = (.ok h.handles.length,
      (h.create place { content := .file [], permissions := grant 0o666 }).adding
        (some { node := h.nodes.length, access := .write })) := by
  simp only [createFile, walked, free, mayChange, Option.isSome_none, Bool.false_eq_true, ↓reduceIte]
  rfl

theorem createFile_refused (walked : h.walk true path = .ok place) (at? : h.nodeOf? place = some number)
    (refused : h.openPath path .write true = (.error e, h)) : h.createFile path truncate = (.error e, h) := by
  simp only [createFile, walked, at?, Option.isSome_some, ↓reduceIte, refused]

theorem createFile_kept (walked : h.walk true path = .ok place) (at? : h.nodeOf? place = some number)
    (opened : h.openPath path .write true = (.ok h.handles.length, h.adding (some x))) :
    h.createFile path false = (.ok h.handles.length, h.adding (some x)) := by
  simp only [createFile, walked, at?, Option.isSome_some, ↓reduceIte, opened, handle?_adding]

theorem createFile_emptied {old : List UInt8} (walked : h.walk true path = .ok place) (at? : h.nodeOf? place = some number)
    (opened : h.openPath path .write true = (.ok h.handles.length, h.adding (some x)))
    (file : h.contentOf? x.node = some (.file old)) :
    h.createFile path true = (.ok h.handles.length, (h.setContent x.node (.file [])).adding (some x)) := by
  have still : (h.adding (some x)).contentOf? x.node = some (.file old) := file
  simp only [createFile, walked, at?, Option.isSome_some, ↓reduceIte, opened, handle?_adding, still]
  rfl

theorem writeFile_refused {h' : Host} (refused : h.createFile path true = (.error e, h')) (bytes : List UInt8) :
    h.writeFile path bytes = (.error e, h') := by
  rw [writeFile, refused]

end Creating

/-- A file that was opened empty holds the bytes in the end, and its handle is gone. -/
theorem writeFile_of_created {k : Host} {x : Handle} (start : x.offset = 0)
    (empty : k.contentOf? x.node = some (.file []))
    (created : h.createFile path true = (.ok k.handles.length, k.adding (some x))) (bytes : List UInt8) :
    h.writeFile path bytes = (.ok (), (k.setContent x.node (.file bytes)).adding none) := by
  have still : (k.setContent x.node (.file bytes)).contentOf? x.node = some (.file bytes) := by
    rw [contentOf?_setContent, empty]
    rfl
  have closed := close_adding (x := { x with offset := bytes.length }) still
  unfold writeFile
  simp only [created, write_adding start empty]
  exact Prod.ext rfl closed

theorem writeFile_free (walked : h.walk true path = .ok place) (free : h.nodeOf? place = none)
    (mayChange : h.mayChange place = true) (bytes : List UInt8) :
    h.writeFile path bytes =
      (.ok (), (h.create place { content := .file bytes, permissions := grant 0o666 }).adding none) := by
  have created := createFile_free walked free mayChange true
  have empty : (h.create place { content := .file [], permissions := grant 0o666 }).contentOf? h.nodes.length =
      some (.file []) := by simp [contentOf?, create]
  have written := writeFile_of_created (x := { node := h.nodes.length, access := .write }) rfl empty created bytes
  rw [written, setContent_create]

theorem writeFile_taken {old : List UInt8} (walked : h.walk true path = .ok place)
    (at? : h.nodeOf? place = some number) (there : h.nodes[number]? = some node) (file : node.content = .file old)
    (allowed : allows node .write = true) (bytes : List UInt8) :
    h.writeFile path bytes = (.ok (), (h.setContent number (.file bytes)).adding none) := by
  have content : h.contentOf? number = some (.file old) := by simp [contentOf?, there, file]
  have opened := openPath_eq walked at? there file .write
  rw [if_pos allowed] at opened
  have created := createFile_emptied walked at? opened content
  have empty : (h.setContent number (.file [])).contentOf? number = some (.file []) := by
    rw [contentOf?_setContent, content]
    rfl
  have written := writeFile_of_created (x := { node := number, access := .write }) rfl empty created bytes
  rw [written, setContent_setContent]

end Host

end DiscCatalog
