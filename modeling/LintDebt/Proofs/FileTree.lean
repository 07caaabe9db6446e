import LintDebt.FileTree
import LintDebt.Proofs.Text.Bytes

/-!
# Files after a write

A file that was written holds what was written, and every path leads where it led before.

* `LintDebt.Contents.append_append`: what is added to a file twice.
* `LintDebt.FileNode.child?_setEntry`: the entries of a directory with one entry set.
* `LintDebt.FileNode.lookup?_update?`: what stands at the end of the way of an update.
* `LintDebt.FileNode.isDirectoryAt_update?`: an update moves no directory.
* `LintDebt.FileNode.held?_update?_of_ne`: an update changes no other file.
* `LintDebt.FileNode.isSome_update?_iff`: what an update needs.
* `LintDebt.FileTree.contents?_update?`: what the file at an updated path holds.
-/

namespace LintDebt

namespace Contents

/-- What is added to a file twice may be added at once. -/
theorem append_append (c : Contents) (s t : String) : (c.append s).append t = c.append (s ++ t) := by
  cases c with
  | text u =>
    show Contents.text (u ++ s ++ t) = .text (u ++ (s ++ t))
    rw [String.append_assoc]
  | binary bytes =>
    show Contents.binary (bytes ++ s.toUTF8.toList ++ t.toUTF8.toList) =
      .binary (bytes ++ (s ++ t).toUTF8.toList)
    rw [Text.toList_toUTF8_append, List.append_assoc]

end Contents

namespace FileNode

/-! ## Directories -/

/-- The entry that was set is found under its name, and all others as before. -/
theorem child?_setEntry (entries : List (String × FileNode)) (name other : String)
    (node : FileNode) :
    child? (setEntry entries name node) other =
      if name = other then some node else child? entries other := by
  unfold setEntry
  split
  · next hany =>
    obtain ⟨held, hmem, hheld⟩ := List.any_eq_true.mp hany
    have hnames : (fun e : String × FileNode => e.1 == other) ∘
        (fun e : String × FileNode => if e.1 == name then (e.1, node) else (e.1, e.2)) =
          fun e => e.1 == other := by
      funext e
      by_cases he : e.1 = name <;> simp [he]
    unfold child?
    rw [List.find?_map, hnames]
    cases hfind : entries.find? (·.1 == other) with
    | none =>
      have hne : name ≠ other := by
        rintro rfl
        exact absurd hheld (by simpa using List.find?_eq_none.mp hfind held hmem)
      simp [hne]
    | some e =>
      have he : e.1 = other := by simpa using List.find?_some hfind
      by_cases hname : name = other
      · simp [he, hname]
      · simp [he, hname, Ne.symm hname]
  · next hany =>
    have hfresh : child? entries name = none := by
      have hnone : entries.find? (·.1 == name) = none := by
        rw [List.find?_eq_none]
        intro e he hname
        exact hany (List.any_eq_true.mpr ⟨e, he, hname⟩)
      rw [child?, hnone]
      rfl
    unfold child? at hfresh ⊢
    rw [List.find?_append]
    by_cases hname : name = other
    · subst hname
      rw [Option.map_eq_none_iff] at hfresh
      simp [hfresh]
    · cases entries.find? (·.1 == other) <;> simp [hname]

/-! ## Updates -/

/-- What a file that an update meets has held before. -/
def held? (way : List String) (node : FileNode) : Option Contents :=
  match node.lookup? way with
  | some (.file contents) => some contents
  | _ => none

/-- Whether a directory lies at the end of a way from a node. -/
def isDirectoryAt (way : List String) (node : FileNode) : Bool :=
  ((node.lookup? way).map isDirectory).getD false

/-- A way is gone one part after the other. -/
theorem lookup?_append (way rest : List String) (node : FileNode) :
    node.lookup? (way ++ rest) = (node.lookup? way).bind (lookup? rest) := by
  induction way generalizing node with
  | nil => rfl
  | cons name way ih =>
    cases node with
    | file contents => rfl
    | directory entries =>
      rw [List.cons_append, lookup?, lookup?, Option.bind_assoc]
      exact congrArg _ (funext ih)

/-- At the end of the way of an update stands the changed file. -/
theorem lookup?_update? {change : Option Contents → Contents} {way : List String}
    {node node' : FileNode} (h : node.update? change way = some node') :
    node'.lookup? way = some (.file (change (held? way node))) := by
  fun_induction update? change way node generalizing node' with
  | case1 => cases h
  | case2 => cases h
  | case3 => cases h
  | case4 name entries contents hchild =>
    cases h
    simp [lookup?, child?_setEntry, held?, hchild]
  | case5 name entries hchild =>
    cases h
    simp [lookup?, child?_setEntry, held?, hchild]
  | case6 name way entries hway ih =>
    simp only [Option.bind_eq_bind, Option.bind_eq_some_iff] at h
    obtain ⟨child, hchild, updated, hupdated, hnode⟩ := h
    cases hnode
    have hfound := ih child hupdated
    simpa [lookup?, child?_setEntry, held?, hchild] using hfound

/-- An update moves no directory. -/
theorem isDirectoryAt_update? {change : Option Contents → Contents} {way : List String}
    {node node' : FileNode} (h : node.update? change way = some node') (other : List String) :
    node'.isDirectoryAt other = node.isDirectoryAt other := by
  fun_induction update? change way node generalizing node' other with
  | case1 => cases h
  | case2 => cases h
  | case3 => cases h
  | case4 name entries contents hchild =>
    cases h
    cases other with
    | nil => rfl
    | cons first rest =>
      by_cases hname : name = first
      · subst hname
        cases rest <;> simp [isDirectoryAt, lookup?, child?_setEntry, hchild, isDirectory]
      · simp [isDirectoryAt, lookup?, child?_setEntry, hname]
  | case5 name entries hchild =>
    cases h
    cases other with
    | nil => rfl
    | cons first rest =>
      by_cases hname : name = first
      · subst hname
        cases rest <;> simp [isDirectoryAt, lookup?, child?_setEntry, hchild, isDirectory]
      · simp [isDirectoryAt, lookup?, child?_setEntry, hname]
  | case6 name way entries hway ih =>
    simp only [Option.bind_eq_bind, Option.bind_eq_some_iff] at h
    obtain ⟨child, hchild, updated, hupdated, hnode⟩ := h
    cases hnode
    cases other with
    | nil => rfl
    | cons first rest =>
      by_cases hname : name = first
      · subst hname
        have hfound := ih child hupdated rest
        simpa [isDirectoryAt, lookup?, child?_setEntry, hchild] using hfound
      · simp [isDirectoryAt, lookup?, child?_setEntry, hname]

/-- An update changes no other file. -/
theorem held?_update?_of_ne {change : Option Contents → Contents} {way other : List String}
    {node node' : FileNode} (h : node.update? change way = some node') (hne : other ≠ way) :
    node'.held? other = node.held? other := by
  fun_induction update? change way node generalizing node' other with
  | case1 => cases h
  | case2 => cases h
  | case3 => cases h
  | case4 name entries contents hchild =>
    cases h
    cases other with
    | nil => rfl
    | cons first rest =>
      by_cases hname : name = first
      · subst hname
        cases rest with
        | nil => exact absurd rfl hne
        | cons => simp [held?, lookup?, child?_setEntry, hchild]
      · simp [held?, lookup?, child?_setEntry, hname]
  | case5 name entries hchild =>
    cases h
    cases other with
    | nil => rfl
    | cons first rest =>
      by_cases hname : name = first
      · subst hname
        cases rest with
        | nil => exact absurd rfl hne
        | cons => simp [held?, lookup?, child?_setEntry, hchild]
      · simp [held?, lookup?, child?_setEntry, hname]
  | case6 name way entries hway ih =>
    simp only [Option.bind_eq_bind, Option.bind_eq_some_iff] at h
    obtain ⟨child, hchild, updated, hupdated, hnode⟩ := h
    cases hnode
    cases other with
    | nil => rfl
    | cons first rest =>
      by_cases hname : name = first
      · subst hname
        have hfound := ih child hupdated fun hrest => hne (hrest ▸ rfl)
        simpa [held?, lookup?, child?_setEntry, hchild] using hfound
      · simp [held?, lookup?, child?_setEntry, hname]

/-- An update needs a directory that holds its file, and no directory in the place of the file. -/
theorem isSome_update?_iff {change : Option Contents → Contents} {way : List String}
    {node : FileNode} :
    (node.update? change way).isSome = true ↔
      way ≠ [] ∧ node.isDirectoryAt way.dropLast = true ∧ node.isDirectoryAt way = false := by
  fun_induction update? change way node with
  | case1 way contents =>
    have hfile (way : List String) : isDirectoryAt way (.file contents) = false := by
      cases way <;> rfl
    simp [hfile]
  | case2 => simp
  | case3 name entries inner hchild =>
    simp [isDirectoryAt, lookup?, hchild, isDirectory]
  | case4 name entries contents hchild =>
    simp [isDirectoryAt, lookup?, hchild, isDirectory]
  | case5 name entries hchild =>
    simp [isDirectoryAt, lookup?, hchild, isDirectory]
  | case6 name way entries hway ih =>
    have hne : way ≠ [] := hway
    cases hchild : child? entries name with
    | none => simp [isDirectoryAt, lookup?, hchild, List.dropLast_cons_of_ne_nil hne]
    | some child =>
      have hstep : ((child.update? change way).bind fun updated =>
          some (FileNode.directory (setEntry entries name updated))).isSome =
            (child.update? change way).isSome := by
        cases child.update? change way <;> rfl
      simp only [Option.bind_eq_bind, Option.bind_some]
      rw [hstep, ih child, List.dropLast_cons_of_ne_nil hne]
      simp [isDirectoryAt, lookup?, hchild, hne]

end FileNode

namespace FileTree

/-! ## Paths -/

/-- A directory of a tree is one of its root. -/
theorem isDirectoryAt_eq (t : FileTree) (way : List String) :
    t.isDirectoryAt way = t.root.isDirectoryAt way := by
  unfold isDirectoryAt FileNode.isDirectoryAt
  cases t.root.lookup? way <;> rfl

/-- A file is found where its path leads. -/
theorem contents?_eq (t : FileTree) (path : String) :
    t.contents? path = (t.resolve? path).bind (t.root.held? ·) := by
  unfold contents? FileNode.held?
  cases t.resolve? path <;> rfl

/-- Where the directories are the same, a path leads the same way. -/
theorem walk?_congr {t u : FileTree}
    (h : ∀ way, u.root.isDirectoryAt way = t.root.isDirectoryAt way)
    (pieces : List (List Char)) (here : List String) : u.walk? pieces here = t.walk? pieces here := by
  induction pieces generalizing here with
  | nil => rfl
  | cons piece rest ih => simp only [walk?, isDirectoryAt_eq, h here, ih]

/-- Where the directories and the working directory are the same, a path leads to the same place. -/
theorem resolve?_congr {t u : FileTree}
    (h : ∀ way, u.root.isDirectoryAt way = t.root.isDirectoryAt way)
    (hwork : u.workingDir = t.workingDir) (path : String) : u.resolve? path = t.resolve? path := by
  unfold resolve?
  rw [hwork, walk?_congr h]

/-- A file that was updated holds what the change makes of what it held, and its path still leads
to it. -/
theorem contents?_update? {t u : FileTree} {change : Option Contents → Contents} {path : String}
    (h : t.update? change path = some u) :
    u.contents? path = some (change (t.contents? path)) := by
  unfold update? at h
  simp only [Option.bind_eq_bind, Option.bind_eq_some_iff] at h
  obtain ⟨way, hway, root, hroot, hu⟩ := h
  cases hu
  have hresolve : FileTree.resolve? { t with root := root } path = some way := by
    have hdirectories := FileNode.isDirectoryAt_update? hroot
    exact (resolve?_congr (t := t) (u := { t with root }) hdirectories rfl path).trans hway
  rw [contents?_eq, contents?_eq, hresolve, hway, Option.bind_some, Option.bind_some,
    FileNode.held?, FileNode.lookup?_update? hroot]

/-- A file that was written holds the text. -/
theorem contents?_write? {t u : FileTree} {path s : String} (h : t.write? path s = some u) :
    u.contents? path = some (.text s) :=
  contents?_update? h

/-- A file that held a text, or was missing, holds the text with what was added. -/
theorem contents?_append? {t u : FileTree} {path s : String} (h : t.append? path s = some u) :
    u.contents? path = some (((t.contents? path).getD (.text "")).append s) :=
  contents?_update? h

end FileTree

end LintDebt
