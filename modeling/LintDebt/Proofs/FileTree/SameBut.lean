import LintDebt.Proofs.FileTree
import LintDebt.Proofs.Text.Lines

/-!
# Trees that differ in one file

A change to a file is seen nowhere else: every path leads where it led before, and every other file holds
what it held.

* `LintDebt.FileTree.exists_resolve?_join`: where the files of one directory lie.
* `LintDebt.FileTree.exists_update?_of_contents?`: a file of a directory can be changed.
* `LintDebt.FileTree.IsEmptyDirectory`: a directory without entries; files can be made in it.
* `LintDebt.FileTree.SameBut`: two trees that may differ in what one file holds.
* `LintDebt.FileTree.SameBut.contents?_join`: then the other files of its directory hold the same.
* `LintDebt.FileTree.SameBut.isSome_update?`: and the file can be changed in both or in neither.
-/

namespace LintDebt.FileTree

variable {t u v : FileTree} {path dir name : String} {change : Option Contents → Contents}

/-! ## Directories -/

/-- A text that names an entry of a directory. -/
structure IsName (name : String) : Prop where
  ne_empty : name.toList ≠ []
  ne_current : name.toList ≠ ['.']
  ne_parent : name.toList ≠ ['.', '.']
  no_slash : '/' ∉ name.toList

/-- One more piece is walked behind the others. -/
theorem walk?_concat (t : FileTree) (pieces : List (List Char)) (piece : List Char)
    (here : List String) :
    t.walk? (pieces ++ [piece]) here = (t.walk? pieces here).bind (t.walk? [piece] ·) := by
  induction pieces generalizing here with
  | nil => rfl
  | cons first rest ih =>
    rw [List.cons_append, walk?, walk?, ih, ih, ih]
    split
    · split
      · rfl
      · split <;> rfl
    · rfl

/-- A name leads from a directory to its entry. -/
theorem walk?_name (hname : IsName name) (here : List String) :
    t.walk? [name.toList] here = if t.isDirectoryAt here then some (here ++ [name]) else none := by
  simp [walk?, hname.ne_empty, hname.ne_current, hname.ne_parent]

/-- A name is no absolute path. -/
theorem IsName.isAbsolute (hname : IsName name) : Path.isAbsolute name = false := by
  unfold Path.isAbsolute
  cases hchars : name.toList with
  | nil => rfl
  | cons c rest =>
    have hc : c ≠ '/' := by
      rintro rfl
      exact hname.no_slash (hchars ▸ List.mem_cons_self)
    simp [hc]

/-- Whether a path with a slash in it is absolute does not depend on what stands behind the slash. -/
theorem isAbsolute_of_toList_eq {front : List Char} (h : path.toList = front ++ '/' :: name.toList) :
    Path.isAbsolute path = ((front ++ ['/']).head? == some '/') := by
  unfold Path.isAbsolute
  rw [h]
  cases front <;> rfl

/-- The path of an entry of a directory with a name of its own is that of the directory, a slash and the
name. -/
theorem exists_toList_join (hdir : dir ≠ "") :
    ∃ front, ∀ name, IsName name → (Path.join dir name).toList = front ++ '/' :: name.toList := by
  have hempty : dir.isEmpty = false := by
    rw [← Bool.not_eq_true, String.isEmpty_iff]
    exact hdir
  cases hslash : dir.toList.getLast? == some '/' with
  | true =>
    obtain ⟨front, hfront⟩ := List.getLast?_eq_some_iff.mp (beq_iff_eq.mp hslash)
    refine ⟨front, fun name hname => ?_⟩
    rw [Path.join, hname.isAbsolute, hempty, hslash]
    show (dir ++ name).toList = _
    rw [String.toList_append, hfront, List.append_assoc]
    rfl
  | false =>
    refine ⟨dir.toList, fun name hname => ?_⟩
    rw [Path.join, hname.isAbsolute, hempty, hslash]
    show (dir ++ "/" ++ name).toList = _
    rw [String.toList_append, String.toList_append, List.append_assoc]
    rfl

/-- The entries of a directory lie where the directory lies, if it is one, each under its name. -/
theorem exists_resolve?_join (t : FileTree) (dir : String) :
    ∃ folder : Option (List String), (∀ here ∈ folder, t.isDirectoryAt here = true) ∧
      ∀ name, IsName name → t.resolve? (Path.join dir name) = folder.map (· ++ [name]) := by
  have hfilter (o : Option (List String)) (name : String) (hname : IsName name) :
      o.bind (t.walk? [name.toList] ·) = (o.filter t.isDirectoryAt).map (· ++ [name]) := by
    cases o with
    | none => rfl
    | some here =>
      rw [Option.bind_some, walk?_name hname, Option.filter_some]
      split <;> rfl
  have hholds (o : Option (List String)) : ∀ here ∈ o.filter t.isDirectoryAt,
      t.isDirectoryAt here = true := fun here hin => (Option.mem_filter_iff.mp hin).2
  -- The folder is where the pieces in front of the name lead; without a directory that is where one is.
  by_cases hdir : dir = ""
  · subst hdir
    refine ⟨_, hholds (some t.workingDir), fun name hname => ?_⟩
    have hjoin : Path.join "" name = name := by
      rw [Path.join, hname.isAbsolute]
      exact String.empty_append
    have hempty : name.isEmpty = false := by
      rw [← Bool.not_eq_true, String.isEmpty_iff]
      rintro rfl
      exact hname.ne_empty rfl
    rw [hjoin, resolve?, hempty, hname.isAbsolute, Text.split_of_not_mem hname.no_slash, ← hfilter _ _ hname]
    rfl
  · obtain ⟨front, hfront⟩ := exists_toList_join hdir
    refine ⟨_, hholds (t.walk? (Text.split '/' front)
      (if (front ++ ['/']).head? == some '/' then [] else t.workingDir)), fun name hname => ?_⟩
    have hpath := hfront name hname
    have hempty : (Path.join dir name).isEmpty = false := by
      rw [← Bool.not_eq_true, String.isEmpty_iff]
      intro hnil
      rw [hnil] at hpath
      exact List.append_ne_nil_of_right_ne_nil front (List.cons_ne_nil _ _) hpath.symm
    rw [resolve?, hempty, if_neg Bool.false_ne_true, isAbsolute_of_toList_eq hpath, hpath,
      Text.split_append_cons, Text.split_of_not_mem hname.no_slash, walk?_concat, hfilter _ _ hname]

/-- A file can be changed, or made, where a directory holds it and no directory stands in its place. -/
theorem exists_update?_of_resolve? {here : List String} (hway : t.resolve? path = some (here ++ [name]))
    (hdirectory : t.root.isDirectoryAt here = true) (hfile : t.root.isDirectoryAt (here ++ [name]) = false)
    (change : Option Contents → Contents) : ∃ u, t.update? change path = some u := by
  have hsome : (t.root.update? change (here ++ [name])).isSome = true := by
    rw [FileNode.isSome_update?_iff, List.dropLast_concat]
    exact ⟨List.append_ne_nil_of_right_ne_nil here (List.cons_ne_nil _ _), hdirectory, hfile⟩
  obtain ⟨root, hroot⟩ := Option.isSome_iff_exists.mp hsome
  refine ⟨{ t with root }, ?_⟩
  unfold update?
  rw [hway]
  simp only [Option.bind_eq_bind, Option.bind_some, hroot]

/-- A file that lies in a directory can be changed. -/
theorem exists_update?_of_contents? {held : Contents} (hname : IsName name)
    (h : t.contents? (Path.join dir name) = some held) (change : Option Contents → Contents) :
    ∃ u, t.update? change (Path.join dir name) = some u := by
  obtain ⟨folder, hdirectory, hresolve⟩ := exists_resolve?_join t dir
  cases hfolder : folder with
  | none =>
    rw [contents?_eq, hresolve name hname, hfolder] at h
    cases h
  | some here =>
    have hway : t.resolve? (Path.join dir name) = some (here ++ [name]) := by
      rw [hresolve name hname, hfolder]
      rfl
    rw [contents?_eq, hway, Option.bind_some] at h
    have hfile : t.root.isDirectoryAt (here ++ [name]) = false := by
      unfold FileNode.held? at h
      unfold FileNode.isDirectoryAt
      split at h
      · next found =>
        rw [found]
        rfl
      · cases h
    have hhere := hdirectory here hfolder
    rw [isDirectoryAt_eq] at hhere
    exact exists_update?_of_resolve? hway hhere hfile change

/-- The names in a directory lead into one that has no entries. -/
def IsEmptyDirectory (t : FileTree) (dir : String) : Prop :=
  ∃ here, t.root.lookup? here = some (.directory []) ∧
    ∀ name, IsName name → t.resolve? (Path.join dir name) = some (here ++ [name])

namespace IsEmptyDirectory

/-- It is enough to look where one of the names leads. -/
theorem of_name {here : List String} (hempty : t.root.lookup? here = some (.directory []))
    (hname : IsName name) (hresolve : t.resolve? (Path.join dir name) = some (here ++ [name])) :
    t.IsEmptyDirectory dir := by
  obtain ⟨folder, -, hnames⟩ := exists_resolve?_join t dir
  rw [hnames name hname, Option.map_eq_some_iff] at hresolve
  obtain ⟨found, rfl, hfound⟩ := hresolve
  obtain rfl := List.append_cancel_right hfound
  exact ⟨found, hempty, hnames⟩

/-- An empty directory has no entries. -/
theorem lookup? {here : List String} (hempty : t.root.lookup? here = some (.directory [])) (name : String) :
    t.root.lookup? (here ++ [name]) = none := by
  rw [FileNode.lookup?_append, hempty]
  rfl

/-- An empty directory has no files. -/
theorem contents? (h : t.IsEmptyDirectory dir) (hname : IsName name) :
    t.contents? (Path.join dir name) = none := by
  obtain ⟨here, hempty, hresolve⟩ := h
  rw [contents?_eq, hresolve name hname, Option.bind_some, FileNode.held?, lookup? hempty]

/-- In an empty directory a file can be made. -/
theorem exists_update? (h : t.IsEmptyDirectory dir) (hname : IsName name)
    (change : Option Contents → Contents) : ∃ u, t.update? change (Path.join dir name) = some u := by
  obtain ⟨here, hempty, hresolve⟩ := h
  apply exists_update?_of_resolve? (hresolve name hname)
  · rw [FileNode.isDirectoryAt, hempty]
    rfl
  · rw [FileNode.isDirectoryAt, lookup? hempty]
    rfl

end IsEmptyDirectory

/-! ## All files but one -/

/-- Two trees that may differ in what the file at a path holds, and in nothing else that paths lead to. -/
structure SameBut (path : String) (t u : FileTree) : Prop where
  workingDir : u.workingDir = t.workingDir
  directories : ∀ way, u.root.isDirectoryAt way = t.root.isDirectoryAt way
  files : ∀ way, t.resolve? path ≠ some way → u.root.held? way = t.root.held? way

namespace SameBut

/-- A tree is the same as itself. -/
theorem refl (path : String) (t : FileTree) : SameBut path t t :=
  ⟨rfl, fun _ => rfl, fun _ _ => rfl⟩

/-- Every path leads to the same place. -/
theorem resolve?_eq (h : SameBut path t u) (other : String) : u.resolve? other = t.resolve? other :=
  resolve?_congr h.directories h.workingDir other

/-- The trees can change places. -/
theorem symm (h : SameBut path t u) : SameBut path u t where
  workingDir := h.workingDir.symm
  directories way := (h.directories way).symm
  files way hway := (h.files way (h.resolve?_eq path ▸ hway)).symm

/-- Trees that are the same as a third are the same. -/
theorem trans (h : SameBut path t u) (h' : SameBut path u v) : SameBut path t v where
  workingDir := h'.workingDir.trans h.workingDir
  directories way := (h'.directories way).trans (h.directories way)
  files way hway := (h'.files way (h.resolve?_eq path ▸ hway)).trans (h.files way hway)

/-- A change to a file is seen nowhere else. -/
theorem of_update? (h : t.update? change path = some u) : SameBut path t u := by
  unfold update? at h
  simp only [Option.bind_eq_bind, Option.bind_eq_some_iff] at h
  obtain ⟨way, hway, root, hroot, hu⟩ := h
  cases hu
  refine ⟨rfl, FileNode.isDirectoryAt_update? hroot, fun other hother => ?_⟩
  refine FileNode.held?_update?_of_ne hroot ?_
  rintro rfl
  exact hother hway

/-- The other files of the directory hold the same. -/
theorem contents?_join {other : String} (h : SameBut (Path.join dir name) t u) (hname : IsName name)
    (hother : IsName other) (hne : other ≠ name) :
    u.contents? (Path.join dir other) = t.contents? (Path.join dir other) := by
  obtain ⟨folder, -, hresolve⟩ := exists_resolve?_join t dir
  rw [contents?_eq, contents?_eq, h.resolve?_eq, hresolve other hother]
  cases hfolder : folder with
  | none => rfl
  | some here =>
    refine h.files _ ?_
    rw [hresolve name hname, hfolder]
    intro hsame
    have hlast := (List.append_right_inj here).mp (Option.some.inj hsame)
    exact hne (List.singleton_inj.mp hlast).symm

/-- The file can be changed in both trees, or in neither. -/
theorem isSome_update? (h : SameBut path t u) (change change' : Option Contents → Contents) :
    (u.update? change' path).isSome = (t.update? change path).isSome := by
  unfold update?
  rw [h.resolve?_eq]
  cases t.resolve? path with
  | none => rfl
  | some way =>
    have hroot : (u.root.update? change' way).isSome = (t.root.update? change way).isSome := by
      rw [Bool.eq_iff_iff, FileNode.isSome_update?_iff, FileNode.isSome_update?_iff, h.directories,
        h.directories]
    simp only [Option.bind_eq_bind, Option.bind_some]
    revert hroot
    cases u.root.update? change' way <;> cases t.root.update? change way <;> simp

end SameBut

end LintDebt.FileTree
