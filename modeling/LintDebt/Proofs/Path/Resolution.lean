import LintDebt.Proofs.Path
import Mathlib.Data.List.Induction

/-!
# The file that a path denotes

An absolute path is resolved by following its parts from the root.  A path as seen from a base directory,
followed from there, ends at the same file, so that different files are seen under different paths.

* `LintDebt.Path.resolve`: the names on the way from the root to what an absolute path denotes.
* `LintDebt.Path.resolve_eq`: only the names among the parts of a path count for it.
* `LintDebt.Path.foldl_walk_climb`: the way up from a base, and down again, ends where the target does.
* `LintDebt.Path.IsTidy`: a path without empty parts, dots and slashes at its ends.
* `LintDebt.Path.resolve_join_relativeTo`: a path as seen from a base directory denotes the same file.
-/

namespace LintDebt.Path

variable {base source name : String} {names stack : List String} {piece : List Char}
  {cs : List Component}

/-! ## Resolving a path -/

/-- Follows one piece of a path from a place, given by the names on the way there: a dot and nothing at all
stay, two dots go back, but not beyond the root, and any other name goes on. -/
def walk (place : List String) (piece : String) : List String :=
  if piece = "" ∨ piece = "." then place
  else if piece = ".." then place.dropLast
  else place ++ [piece]

/-- The names on the way from the root to what an absolute path denotes. -/
def resolve (path : String) : List String :=
  ((Text.split '/' path.toList).map String.ofList).foldl walk []

/-- The names among the parts of a path, steps upwards included. -/
def namesIn (path : String) : List String :=
  (components path).filterMap Component.name?

/-- A piece that stands for no part of a path leads nowhere. -/
theorem walk_of_none (place : List String) (h : componentOfPiece? piece = none) :
    walk place (String.ofList piece) = place := by
  unfold componentOfPiece? at h
  split at h
  · next hskip =>
    rcases hskip with rfl | rfl <;> rfl
  · split at h <;> cases h

/-- Following the pieces of a path is following the names among its parts. -/
theorem foldl_walk_pieces (pieces : List (List Char)) (place : List String) :
    (pieces.map String.ofList).foldl walk place =
      ((pieces.filterMap componentOfPiece?).filterMap Component.name?).foldl walk place := by
  induction pieces generalizing place with
  | nil => rfl
  | cons piece rest ih =>
    rw [List.map_cons, List.foldl_cons, ih]
    cases hpiece : componentOfPiece? piece with
    | none => rw [List.filterMap_cons_none hpiece, walk_of_none place hpiece]
    | some c =>
      rw [List.filterMap_cons_some hpiece,
        List.filterMap_cons_some (name?_of_componentOfPiece? hpiece), List.foldl_cons]

/-- The names among the parts of a path are those of its pieces: a start has no name. -/
theorem namesIn_eq (path : String) :
    namesIn path =
      ((Text.split '/' path.toList).filterMap componentOfPiece?).filterMap Component.name? := by
  unfold namesIn components
  dsimp only
  rw [List.filterMap_append]
  split
  · rfl
  · split <;> rfl

/-- A path is resolved by the names among its parts. -/
theorem resolve_eq (path : String) : resolve path = (namesIn path).foldl walk [] := by
  rw [namesIn_eq]
  exact foldl_walk_pieces _ []

/-! ## Up and down -/

/-- A step that is not the way upwards leads down. -/
theorem walk_of_isStep (place : List String) (hstep : IsStep name) (hparent : name ≠ "..") :
    walk place name = place ++ [name] := by
  have hempty : name ≠ "" := fun h => hstep.ne_empty (h ▸ rfl)
  have hcurrent : name ≠ "." := fun h => hstep.ne_current (h ▸ rfl)
  unfold walk
  rw [if_neg (not_or.mpr ⟨hempty, hcurrent⟩), if_neg hparent]

/-- Steps that all lead down are added to the place where they start. -/
theorem foldl_walk_down (hnames : ∀ name ∈ names, IsStep name ∧ name ≠ "..") (place : List String) :
    names.foldl walk place = place ++ names := by
  induction names generalizing place with
  | nil => exact (List.append_nil place).symm
  | cons name rest ih =>
    obtain ⟨hstep, hparent⟩ := hnames name List.mem_cons_self
    rw [List.foldl_cons, walk_of_isStep place hstep hparent,
      ih fun n hn => hnames n (List.mem_cons_of_mem name hn), List.append_assoc, List.singleton_append]

/-- As many steps upwards as there are names behind a place lead back to it. -/
theorem foldl_walk_up (place names : List String) :
    (List.replicate names.length "..").foldl walk (place ++ names) = place := by
  induction names using List.reverseRecOn with
  | nil => exact List.append_nil place
  | append_singleton names name ih =>
    have hback : walk (place ++ (names ++ [name])) ".." = place ++ names := by
      rw [← List.append_assoc]
      exact List.dropLast_concat
    rw [List.length_append, List.length_singleton, List.replicate_succ, List.foldl_cons, hback, ih]

/-- The plain names among parts without a way upwards are all their names. -/
theorem filter_isNamed (hplain : Component.parent ∉ cs) :
    cs.filter Component.isNamed = (cs.filterMap Component.name?).map Component.named := by
  induction cs with
  | nil => rfl
  | cons c rest ih =>
    obtain ⟨hc, hrest⟩ := not_or.mp fun h => hplain (List.mem_cons.mpr h)
    cases c with
    | root => exact ih hrest
    | current => exact ih hrest
    | parent => exact absurd rfl hc
    | named name => exact congrArg (Component.named name :: ·) (ih hrest)

/-- A plain name in a path is not the way upwards. -/
theorem ne_parent_of_named {path : String} (h : Component.named name ∈ components path) :
    name ≠ ".." := by
  rintro rfl
  obtain ⟨piece, -, hfound⟩ := exists_piece_of_mem_components h rfl
  have hpiece : ".." = String.ofList piece := Option.some.inj (name?_of_componentOfPiece? hfound)
  have hparent : piece = ['.', '.'] := by
    rw [← String.toList_ofList (l := piece), ← hpiece]
    rfl
  rw [hparent] at hfound
  revert hfound
  decide

/-- The names of a directory without a way upwards all lead down. -/
theorem leads_down (hplain : Component.parent ∉ cs) (hcs : cs ⊆ components base) :
    ∀ name ∈ cs.filterMap Component.name?, IsStep name ∧ name ≠ ".." := by
  intro name hname
  refine ⟨isStep_of_mem_names hcs name hname, ?_⟩
  obtain ⟨c, hc, hfound⟩ := List.mem_filterMap.mp hname
  cases c with
  | root => cases hfound
  | current => cases hfound
  | parent => exact absurd hc hplain
  | named n =>
    cases hfound
    exact ne_parent_of_named (hcs hc)

/-- Both lists start with what they have in common, and go on with what is left of them. -/
theorem exists_common (as bs : List Component) :
    ∃ common, as = common ++ (dropCommon as bs).1 ∧ bs = common ++ (dropCommon as bs).2 := by
  fun_induction dropCommon as bs with
  | case1 as b bs ih =>
    obtain ⟨common, has, hbs⟩ := ih
    exact ⟨b :: common, congrArg (b :: ·) has, congrArg (b :: ·) hbs⟩
  | case2 => exact ⟨[], rfl, rfl⟩
  | case3 => exact ⟨[], rfl, rfl⟩

/-- From a base without a way upwards, the names that lead to a target end where the target does: behind
the common start, as many names are left again as the base goes on with. -/
theorem foldl_walk_climb (hplain : Component.parent ∉ components base) (target : List Component) :
    (namesIn base ++ climb (components base) target).foldl walk [] =
      (target.filterMap Component.name?).foldl walk [] := by
  unfold climb namesIn
  obtain ⟨common, hbase, htarget⟩ := exists_common (components base) target
  generalize dropCommon (components base) target = rest at hbase htarget ⊢
  obtain ⟨up, down⟩ := rest
  dsimp only at hbase htarget ⊢
  have hup : up ⊆ components base := hbase ▸ List.subset_append_right common up
  have hplainUp : Component.parent ∉ up := fun h => hplain (hup h)
  have hback : (up.filter Component.isNamed).map (fun _ => "..") =
      List.replicate (up.filterMap Component.name?).length ".." := by
    rw [filter_isNamed hplainUp, List.map_map]
    exact List.map_const'
  rw [hback, hbase, htarget, List.filterMap_append, List.filterMap_append]
  simp only [List.foldl_append]
  rw [foldl_walk_down (leads_down hplainUp hup), foldl_walk_up]

/-! ## Relative paths -/

/-- A path written without detours: no slash stands at either end, and between slashes there is always a name,
and not just a dot.  The empty path is written so too. -/
structure IsTidy (path : String) : Prop where
  no_empty : path ≠ "" → [] ∉ Text.split '/' path.toList
  no_current : ['.'] ∉ Text.split '/' path.toList
  no_leading : path.toList.head? ≠ some '/'
  no_trailing : path.toList.getLast? ≠ some '/'

/-- A path of steps is written without detours. -/
theorem isTidy_steps (hnames : ∀ name ∈ names, IsStep name) : IsTidy ("/".intercalate names) := by
  by_cases hne : names = []
  · subst hne
    exact ⟨fun h => absurd rfl h, by decide, by decide, by decide⟩
  · have hsplit := split_steps hnames hne
    have hempty : [] ∉ Text.split '/' ("/".intercalate names).toList := by
      rw [hsplit]
      intro h
      obtain ⟨name, hname, hnone⟩ := List.mem_map.mp h
      exact (hnames name hname).ne_empty hnone
    refine ⟨fun _ => hempty, ?_, ?_, ?_⟩
    · rw [hsplit]
      intro h
      obtain ⟨name, hname, hdot⟩ := List.mem_map.mp h
      exact (hnames name hname).ne_current hdot
    · intro h
      have habsolute := isAbsolute_steps hnames
      unfold isAbsolute at habsolute
      rw [h] at habsolute
      cases habsolute
    · -- behind a slash at the end, one more piece would begin
      intro h
      obtain ⟨front, hfront⟩ := List.getLast?_eq_some_iff.mp h
      apply hempty
      rw [hfront, Text.split_append_cons]
      exact List.mem_append_right _ List.mem_cons_self

/-- Of two absolute paths, one is seen from the other by way of what they have in common. -/
theorem relativeTo_of_isAbsolute (hbase : isAbsolute base = true) (hsource : isAbsolute source = true) :
    relativeTo base source = "/".intercalate (climb (components base) (components source)) := by
  unfold relativeTo
  rw [hbase, hsource]
  rfl

/-- The names in a path of steps that goes on from a directory are those of the directory and the steps. -/
theorem namesIn_join (base : String) (hnames : ∀ name ∈ names, IsStep name) :
    namesIn (join base ("/".intercalate names)) = namesIn base ++ names := by
  unfold namesIn
  rw [components_join base (isAbsolute_steps hnames) (head?_split_steps hnames), List.filterMap_append,
    names_parts hnames]

/-- A path as seen from a base denotes, from there, the file that it denoted itself. -/
theorem resolve_join_of_isAbsolute (hbase : isAbsolute base = true)
    (hplain : Component.parent ∉ components base) (hsource : isAbsolute source = true) :
    resolve (join base (relativeTo base source)) = resolve source := by
  have hsteps := isStep_of_mem_climb (components base) source
  rw [relativeTo_of_isAbsolute hbase hsource, resolve_eq, namesIn_join base hsteps,
    foldl_walk_climb hplain, resolve_eq]
  rfl

/-- Seen from a base directory without a way upwards, an absolute path denotes the file that it denotes by itself,
and is written without detours.  So paths to different files are never seen as one. -/
theorem resolve_join_relativeTo (hbase : isAbsolute base = true)
    (hplain : Component.parent ∉ components base) (hsource : isAbsolute source = true) :
    resolve (join base (relativeTo base source)) = resolve source ∧ IsTidy (relativeTo base source) ∧
      ∀ other, isAbsolute other = true → resolve other ≠ resolve source →
        relativeTo base other ≠ relativeTo base source := by
  have hresolve := resolve_join_of_isAbsolute hbase hplain hsource
  refine ⟨hresolve, ?_, ?_⟩
  · rw [relativeTo_of_isAbsolute hbase hsource]
    exact isTidy_steps (isStep_of_mem_climb _ _)
  · intro other hother hdifferent hsame
    apply hdifferent
    calc resolve other
        = resolve (join base (relativeTo base other)) :=
          (resolve_join_of_isAbsolute hbase hplain hother).symm
      _ = resolve (join base (relativeTo base source)) := by rw [hsame]
      _ = resolve source := hresolve

/-- From a package, a file beside it, by a path with detours, and one that only looks like it. -/
theorem resolve_join_relativeTo_of_sibling :
    isAbsolute "/repo/pkg" = true ∧ Component.parent ∉ components "/repo/pkg" ∧
      isAbsolute "/repo//x/./../y.css" = true ∧
      relativeTo "/repo/pkg" "/repo//x/./../y.css" = "../x/../y.css" ∧
      resolve "/repo//x/./../y.css" = ["repo", "y.css"] ∧
      resolve (join "/repo/pkg" "../x/../y.css") = resolve "/repo//x/./../y.css" ∧
      IsTidy "../x/../y.css" ∧ relativeTo "/repo/pkg" "/repo/x/y.css" ≠ "../x/../y.css" := by
  have hbase : isAbsolute "/repo/pkg" = true := by decide
  have hplain : Component.parent ∉ components "/repo/pkg" := by decide
  have hsource : isAbsolute "/repo//x/./../y.css" = true := by decide
  have hrelative : relativeTo "/repo/pkg" "/repo//x/./../y.css" = "../x/../y.css" := by decide
  have hresolved : resolve "/repo//x/./../y.css" = ["repo", "y.css"] := by decide
  obtain ⟨hfile, htidy, hother⟩ := resolve_join_relativeTo hbase hplain hsource
  rw [hrelative] at hfile htidy hother
  exact ⟨hbase, hplain, hsource, hrelative, hresolved, hfile, htidy,
    hother "/repo/x/y.css" (by decide) (by decide)⟩

end LintDebt.Path
