import LintDebt.Path
import LintDebt.Proofs.Text.Lines

/-!
# Paths that lead back

A relative path is made of steps, and taken from the directory that it was seen from it leads to what is
seen under the same path again.

* `LintDebt.Path.IsStep`: a name that a relative path is made of.
* `LintDebt.Path.exists_relativeTo_eq`: a path as seen from a base directory consists of steps.
* `LintDebt.Path.components_join`: the parts of a path that goes on from a directory.
* `LintDebt.Path.relativeTo_join_steps`: a path of steps is seen from its directory as it stands.
* `LintDebt.Path.relativeTo_join_relativeTo`: what was seen from a directory is seen from it again.
-/

namespace LintDebt.Path

variable {base source path name : String} {names : List String} {piece : List Char} {c : Component}

/-! ## Steps -/

/-- A name that a relative path is made of: it may lead upwards, but it holds no slash and is neither empty
nor a dot. -/
structure IsStep (name : String) : Prop where
  ne_empty : name.toList ≠ []
  ne_current : name.toList ≠ ['.']
  no_slash : '/' ∉ name.toList

/-- The way upwards is a step. -/
theorem isStep_parent : IsStep ".." := ⟨by decide, by decide, by decide⟩

/-- A step is a part of a path and stands for itself there. -/
theorem IsStep.name?_componentOfPiece? (h : IsStep name) :
    (componentOfPiece? name.toList).bind Component.name? = some name := by
  unfold componentOfPiece?
  rw [if_neg (not_or.mpr ⟨h.ne_empty, h.ne_current⟩)]
  split
  · next hparent =>
    rw [← String.ofList_toList (s := name), hparent]
    rfl
  · rw [String.ofList_toList]
    rfl

/-- A piece without slashes stands for a step, if it stands for a name at all. -/
theorem isStep_of_componentOfPiece? (hpiece : '/' ∉ piece) (hc : componentOfPiece? piece = some c)
    (hname : c.name? = some name) : IsStep name := by
  unfold componentOfPiece? at hc
  split at hc
  · cases hc
  · next hnone =>
    obtain ⟨hempty, hcurrent⟩ := not_or.mp hnone
    split at hc
    · cases hc
      cases hname
      exact isStep_parent
    · cases hc
      cases hname
      constructor <;> rwa [String.toList_ofList]

/-- A piece that stands for a part of a path is the name of the part. -/
theorem name?_of_componentOfPiece? (h : componentOfPiece? piece = some c) :
    c.name? = some (String.ofList piece) := by
  unfold componentOfPiece? at h
  split at h
  · cases h
  · split at h
    · next hparent =>
      cases h
      rw [hparent]
      rfl
    · cases h
      rfl

/-- A part of a path that has a name is one of the pieces between slashes: neither the root nor the current
directory has a name. -/
theorem exists_piece_of_mem_components (hc : c ∈ components path) (hname : c.name? = some name) :
    ∃ piece ∈ Text.split '/' path.toList, componentOfPiece? piece = some c := by
  unfold components at hc
  dsimp only at hc
  rcases List.mem_append.mp hc with hstart | hrest
  · have hnone : c.name? = none := by
      split at hstart
      · rw [List.mem_singleton.mp hstart]
        rfl
      · split at hstart
        · rw [List.mem_singleton.mp hstart]
          rfl
        · cases hstart
    rw [hnone] at hname
    cases hname
  · exact List.mem_filterMap.mp hrest

/-- The names in a path hold only characters of the path. -/
theorem subset_of_mem_components (hc : c ∈ components path) (hname : c.name? = some name) :
    name.toList ⊆ path.toList := by
  obtain ⟨piece, hpiece, hfound⟩ := exists_piece_of_mem_components hc hname
  have hpieceName : String.ofList piece = name :=
    Option.some.inj ((name?_of_componentOfPiece? hfound).symm.trans hname)
  rw [← hpieceName, String.toList_ofList]
  exact Text.subset_of_mem_split hpiece

/-- The names in a path are steps. -/
theorem isStep_of_mem_components (hc : c ∈ components path) (hname : c.name? = some name) :
    IsStep name := by
  obtain ⟨piece, hpiece, hfound⟩ := exists_piece_of_mem_components hc hname
  exact isStep_of_componentOfPiece? (Text.not_mem_of_mem_split hpiece) hfound hname

/-! ## Relative paths -/

/-- What is left of a list behind the longest common start is a part of it. -/
theorem dropCommon_snd_subset (as bs : List Component) : (dropCommon as bs).2 ⊆ bs := by
  fun_induction dropCommon as bs with
  | case1 as a bs ih => exact List.subset_cons_of_subset a ih
  | case2 => exact List.Subset.refl _
  | case3 => exact List.Subset.refl _

/-- A list is the longest common start with one that goes on from it. -/
theorem dropCommon_append (as bs : List Component) : dropCommon as (as ++ bs) = ([], bs) := by
  induction as with
  | nil => cases bs <;> rfl
  | cons a as ih => rw [List.cons_append, dropCommon, if_pos rfl, ih]

/-- The names of parts of a path are steps. -/
theorem isStep_of_mem_names {cs : List Component} (hcs : cs ⊆ components path) :
    ∀ name ∈ cs.filterMap Component.name?, IsStep name := by
  intro name hname
  obtain ⟨c, hc, hfound⟩ := List.mem_filterMap.mp hname
  exact isStep_of_mem_components (hcs hc) hfound

/-- The names that lead from one path to another lead upwards, or are in the target. -/
theorem mem_climb {cs : List Component} (h : name ∈ climb cs (components path)) :
    name = ".." ∨ ∃ c ∈ components path, c.name? = some name := by
  unfold climb at h
  rcases List.mem_append.mp h with hup | hdown
  · obtain ⟨c, -, hparent⟩ := List.mem_map.mp hup
    exact Or.inl hparent.symm
  · obtain ⟨c, hc, hname⟩ := List.mem_filterMap.mp hdown
    exact Or.inr ⟨c, dropCommon_snd_subset _ _ hc, hname⟩

/-- What leads upwards, or is in a path, is a step. -/
theorem isStep_of_leads (h : name = ".." ∨ ∃ c ∈ components path, c.name? = some name) : IsStep name := by
  rcases h with rfl | ⟨c, hc, hname⟩
  · exact isStep_parent
  · exact isStep_of_mem_components hc hname

/-- The names that lead from one path to another are steps. -/
theorem isStep_of_mem_climb (cs : List Component) (path : String) :
    ∀ name ∈ climb cs (components path), IsStep name := by
  intro name hname
  exact isStep_of_leads (mem_climb hname)

/-- A path as seen from a base directory consists of names of the path, and of ways upwards. -/
theorem exists_names_relativeTo (base source : String) :
    ∃ names, (∀ name ∈ names, name = ".." ∨ ∃ c ∈ components source, c.name? = some name) ∧
      relativeTo base source = "/".intercalate names := by
  refine ⟨_, ?_, rfl⟩
  split
  · exact fun name => mem_climb
  · intro name hname
    obtain ⟨c, hc, hfound⟩ := List.mem_filterMap.mp hname
    refine Or.inr ⟨c, ?_, hfound⟩
    unfold stripBase at hc
    split at hc
    · next rest hrest =>
      have hsubset := dropCommon_snd_subset (components base) (components source)
      rw [hrest] at hsubset
      exact hsubset hc
    · exact hc

/-- A path as seen from a base directory consists of steps. -/
theorem exists_relativeTo_eq (base source : String) :
    ∃ names, (∀ name ∈ names, IsStep name) ∧ relativeTo base source = "/".intercalate names := by
  obtain ⟨names, hnames, hrelative⟩ := exists_names_relativeTo base source
  exact ⟨names, fun name hname => isStep_of_leads (hnames name hname), hrelative⟩

/-! ## Going on from a directory -/

/-- The parts that the pieces of a path stand for. -/
def parts (path : String) : List Component :=
  (Text.split '/' path.toList).filterMap componentOfPiece?

/-- A slash behind a base, unless the base already ends with one, separates its parts from those that
follow. -/
theorem components_of_slash {front rest : List Char} (hpath : path.toList = front ++ '/' :: rest)
    (hbase : base.toList = front ++ ['/'] ∨ front ≠ [] ∧ base.toList = front) :
    components path = components base ++ (Text.split '/' rest).filterMap componentOfPiece? := by
  have hsplit : Text.split '/' path.toList = Text.split '/' front ++ Text.split '/' rest := by
    rw [hpath, Text.split_append_cons]
  obtain ⟨first, others, hfirst⟩ := List.exists_cons_of_ne_nil (Text.split_ne_nil '/' front)
  have hhead : (Text.split '/' path.toList).head? = (Text.split '/' base.toList).head? := by
    rcases hbase with hslash | ⟨-, hplain⟩
    · rw [hsplit, hslash, Text.split_append_cons, hfirst]
      rfl
    · rw [hsplit, hplain, hfirst]
      rfl
  have habsolute : isAbsolute path = isAbsolute base := by
    unfold isAbsolute
    rcases hbase with hslash | ⟨hne, hplain⟩
    · rw [hpath, hslash]
      cases front <;> rfl
    · obtain ⟨c, cs, rfl⟩ := List.exists_cons_of_ne_nil hne
      rw [hpath, hplain]
      rfl
  have hparts : (Text.split '/' base.toList).filterMap componentOfPiece? =
      (Text.split '/' front).filterMap componentOfPiece? := by
    rcases hbase with hslash | ⟨-, hplain⟩
    · rw [hslash, Text.split_append_cons, List.filterMap_append]
      exact List.append_nil _
    · rw [hplain]
  unfold components
  dsimp only
  rw [hhead, habsolute, hsplit, List.filterMap_append, hparts, List.append_assoc]

/-- The parts of a path that goes on from a directory are those of the directory and its own. -/
theorem components_join (base : String) (habsolute : isAbsolute path = false)
    (hcurrent : (Text.split '/' path.toList).head? ≠ some ['.']) :
    components (join base path) = components base ++ parts path := by
  unfold join
  rw [if_neg (by rw [habsolute]; exact Bool.false_ne_true)]
  by_cases hempty : base = ""
  · subst hempty
    have hnone : components "" = [] := by decide
    rw [if_pos (by decide), String.empty_append, hnone, List.nil_append]
    unfold components
    dsimp only
    rw [habsolute, if_neg Bool.false_ne_true, if_neg (by simpa using hcurrent)]
    rfl
  · have hne : base.toList ≠ [] := by simpa using hempty
    split
    · next hends =>
      rw [Bool.or_eq_true, String.isEmpty_iff, beq_iff_eq] at hends
      obtain ⟨front, hfront⟩ := List.getLast?_eq_some_iff.mp (hends.resolve_left hempty)
      have hjoined : (base ++ path).toList = front ++ '/' :: path.toList := by
        rw [String.toList_append, hfront, List.append_assoc]
        rfl
      exact components_of_slash hjoined (Or.inl hfront)
    · have hjoined : (base ++ "/" ++ path).toList = base.toList ++ '/' :: path.toList := by
        rw [String.toList_append, String.toList_append, List.append_assoc]
        rfl
      exact components_of_slash hjoined (Or.inr ⟨hne, rfl⟩)

/-- A path that goes on from a directory is absolute exactly when the directory is. -/
theorem isAbsolute_join (habsolute : isAbsolute path = false) :
    isAbsolute (join base path) = isAbsolute base := by
  unfold join
  rw [if_neg (by rw [habsolute]; exact Bool.false_ne_true)]
  by_cases hempty : base = ""
  · subst hempty
    rw [if_pos (by decide), String.empty_append, habsolute]
    decide
  · have hne : base.toList ≠ [] := by simpa using hempty
    obtain ⟨c, cs, hbase⟩ := List.exists_cons_of_ne_nil hne
    unfold isAbsolute
    split <;> simp only [String.toList_append, hbase, List.cons_append, List.head?_cons]

/-! ## Steps from a directory -/

/-- The pieces of a path of steps are the steps. -/
theorem split_steps (hnames : ∀ name ∈ names, IsStep name) (hne : names ≠ []) :
    Text.split '/' ("/".intercalate names).toList = names.map String.toList := by
  rw [String.toList_intercalate]
  refine Text.split_intercalate (by simpa using hne) ?_
  intro piece hpiece
  obtain ⟨name, hname, rfl⟩ := List.mem_map.mp hpiece
  exact (hnames name hname).no_slash

/-- The parts of a path of steps stand for the steps. -/
theorem names_parts (hnames : ∀ name ∈ names, IsStep name) :
    (parts ("/".intercalate names)).filterMap Component.name? = names := by
  by_cases hne : names = []
  · rw [hne]
    decide
  · unfold parts
    rw [split_steps hnames hne, List.filterMap_filterMap, List.filterMap_map]
    clear hne
    induction names with
    | nil => rfl
    | cons name rest ih =>
      have hrest := ih fun n hn => hnames n (List.mem_cons_of_mem name hn)
      rw [List.filterMap_cons, Function.comp_apply,
        (hnames name List.mem_cons_self).name?_componentOfPiece?, hrest]

/-- A path of steps does not start at the root. -/
theorem isAbsolute_steps (hnames : ∀ name ∈ names, IsStep name) :
    isAbsolute ("/".intercalate names) = false := by
  cases names with
  | nil => decide
  | cons name rest =>
    have hname := hnames name List.mem_cons_self
    obtain ⟨c, cs, hcons⟩ := List.exists_cons_of_ne_nil hname.ne_empty
    have hc : c ≠ '/' := fun h => hname.no_slash (by rw [hcons, h]; exact List.mem_cons_self)
    unfold isAbsolute
    rw [String.toList_intercalate, List.map_cons, hcons]
    cases rest.map String.toList <;>
      simp [List.intercalate_singleton, List.intercalate_cons_cons, hc]

/-- Nor does it start with a dot that stands for the current directory. -/
theorem head?_split_steps (hnames : ∀ name ∈ names, IsStep name) :
    (Text.split '/' ("/".intercalate names).toList).head? ≠ some ['.'] := by
  cases names with
  | nil => decide
  | cons name rest =>
    rw [split_steps hnames (List.cons_ne_nil name rest), List.map_cons, List.head?_cons]
    exact fun h => (hnames name List.mem_cons_self).ne_current (Option.some.inj h)

/-- A path of steps that goes on from a directory is seen from it as it stands. -/
theorem relativeTo_join_steps (base : String) (hnames : ∀ name ∈ names, IsStep name) :
    relativeTo base (join base ("/".intercalate names)) = "/".intercalate names := by
  have habsolute := isAbsolute_steps hnames
  have hcomponents := components_join base habsolute (head?_split_steps hnames)
  unfold relativeTo
  rw [isAbsolute_join habsolute, Bool.and_self, hcomponents]
  unfold climb stripBase
  rw [dropCommon_append]
  dsimp only
  rw [names_parts hnames]
  split <;> rfl

/-- What was seen from a base directory is seen under the same path again where that path leads to. -/
theorem relativeTo_join_relativeTo (base source : String) :
    relativeTo base (join base (relativeTo base source)) = relativeTo base source := by
  obtain ⟨names, hnames, hrelative⟩ := exists_relativeTo_eq base source
  rw [hrelative, relativeTo_join_steps base hnames]

end LintDebt.Path
