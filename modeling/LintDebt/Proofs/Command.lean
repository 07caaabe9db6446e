import LintDebt.Command
import LintDebt.Proofs.Config
import LintDebt.Proofs.Json.Indented
import LintDebt.Proofs.Run.Formatter
import LintDebt.Proofs.Toml.Document

/-!
# The printed configuration

The configuration that is printed for a directory is loaded again as it is, in either form: from a file of
its own, and from the section of a package description.  It then needs none of the settings that took
precedence when it was printed.

* `LintDebt.Config.Accepted.load_of_toml`: a policy that can be loaded is loaded from its document.
* `LintDebt.Config.IsSection`: a description has the section that a text denotes.
* `LintDebt.Config.Accepted.load_of_package`: such a policy is loaded from a section that holds it.
* `LintDebt.Config.exists_load_iff`: what policies can be loaded.
* `LintDebt.World.exists_printed`: what is printed for a directory.
* `LintDebt.World.config_reloads`: what is printed is loaded again.
-/

namespace LintDebt

namespace FileTree

variable {t u : FileTree} {dir name text : String}

/-- The file at a path holds the text that was written there. -/
theorem readText?_write? (h : t.write? (Path.join dir name) text = some u) :
    u.readText? (Path.join dir name) = some text := by
  rw [readText?, contents?_write? h]
  rfl

end FileTree

namespace Config

variable {files : FileTree} {baseDir : String} {p : DecayPolicy}

/-- A file whose text can be read is a file. -/
theorem read_of_readText? {path text : String} (h : files.readText? path = some text) :
    files.isFile path = true ∧ read files path = .ok text := by
  obtain ⟨held, hheld, -⟩ := Option.bind_eq_some_iff.mp h
  refine ⟨?_, ?_⟩
  · rw [FileTree.isFile, hheld]
    rfl
  · rw [read, h]

/-- A policy that can be loaded is loaded from its document, whatever lies beside it. -/
theorem Accepted.load_of_toml (h : Accepted p)
    (hread : files.readText? (Path.join baseDir rcFile) = some p.toToml) :
    load files baseDir defaultEngine {} = .ok p := by
  obtain ⟨hfile, hread⟩ := read_of_readText? hread
  obtain ⟨document, hparse, hjson⟩ := DecayPolicy.parse?_toToml h.sorted.nodup
  have hsource : source files baseDir = .ok (some (Path.join baseDir rcFile, p.toJson)) := by
    unfold source
    dsimp only
    rw [if_pos hfile]
    refine bind_eq_ok.mpr ⟨p.toToml, hread, ?_⟩
    rw [hparse, ← hjson]
  exact h.load_of_source hsource

/-- The configuration in a package description is what a text denotes. -/
def IsSection (description text : String) : Prop :=
  ∃ j value, Json.parseStrict? description = some j ∧ Json.parse? text = some value ∧
    j.get? packageKey = some value

/-- A policy that can be loaded is loaded from a package description whose section it is, when it stands in no
file of its own. -/
theorem Accepted.load_of_package (h : Accepted p) (hrc : files.isFile (Path.join baseDir rcFile) = false)
    {description : String} (hread : files.readText? (Path.join baseDir packageFile) = some description)
    (hsection : IsSection description (p.toJson.pretty ++ "\n")) :
    load files baseDir defaultEngine {} = .ok p := by
  obtain ⟨hfile, hread⟩ := read_of_readText? hread
  obtain ⟨j, value, hparse, hvalue, hget⟩ := hsection
  rw [Json.parse?_pretty (p.isStrict_toJson packageKey).1] at hvalue
  cases hvalue
  have hmerged : parseMerged? description = some j.merged := by rw [parseMerged?, hparse, Option.map_some]
  have hfound : packageSection files baseDir = .ok (some p.toJson) := by
    unfold packageSection
    dsimp only
    rw [hfile]
    refine bind_eq_ok.mpr ⟨description, hread, ?_⟩
    rw [hmerged]
    dsimp only
    rw [Json.get?_merged, hget, Option.map_some, DecayPolicy.merged_toJson h.sorted.nodup]
  have hsource : source files baseDir = .ok (some (Path.join baseDir packageFile, p.toJson)) := by
    unfold source
    dsimp only
    rw [hrc]
    exact bind_eq_ok.mpr ⟨some p.toJson, hfound, rfl⟩
  exact h.load_of_source hsource

/-- The printed configuration is the section of a description that holds nothing else. -/
theorem isSection_wrapped (p : DecayPolicy) :
    IsSection (Json.wrapped packageKey (p.toJson.pretty ++ "\n")) (p.toJson.pretty ++ "\n") := by
  obtain ⟨hsound, hstrict⟩ := p.isStrict_toJson packageKey
  refine ⟨.obj [(packageKey, p.toJson)], p.toJson, ?_, Json.parse?_pretty hsound, rfl⟩
  rw [Json.parseStrict?, Json.parse?_wrapped packageKey hsound, Option.filter_some, if_pos hstrict]

/-- The directory of files without any is empty. -/
theorem isEmptyDirectory_noFiles : Run.noFiles.IsEmptyDirectory "" := by
  have hresolve : Run.noFiles.resolve? (Path.join "" rcFile) = some ([] ++ [rcFile]) := by decide +kernel
  exact .of_name rfl isName_rcFile hresolve

/-- The policies that can be loaded are those whose windows stand in the order of their rules, none of them
inverted: any of them is loaded where its document lies. -/
theorem exists_load_iff : (∃ files baseDir engine overrides, load files baseDir engine overrides = .ok p) ↔
    Accepted p := by
  constructor
  · rintro ⟨files, baseDir, engine, overrides, hload⟩
    exact accepted_of_load hload
  · intro h
    obtain ⟨u, hu⟩ := isEmptyDirectory_noFiles.exists_update? isName_rcFile fun _ => .text p.toToml
    exact ⟨u, "", defaultEngine, {}, h.load_of_toml (FileTree.readText?_write? hu)⟩

end Config

namespace World

/-- The text that is printed for a policy. -/
def printed (p : DecayPolicy) : ConfigFormat → String
  | .toml => p.toToml
  | .json => p.toJson.pretty ++ "\n"

variable {w : World} {baseDir : Option String} {as : ConfigFormat}

/-- The configuration is printed when the settings can be resolved, nothing is wrong with its sources, and it
can be loaded. -/
theorem configText_eq_ok_iff {text : String} : w.configText baseDir as = .ok text ↔
    ∃ s p, w.settings false none baseDir false = .ok s ∧ Config.conflict? w.files s.baseDir = none ∧
      Config.load w.files s.baseDir defaultEngine s.overrides = .ok p ∧ printed p as = text := by
  unfold configText
  constructor
  · intro h
    obtain ⟨s, hs, h⟩ := bind_eq_ok.mp h
    split at h
    · cases h
    · next hconflict =>
      obtain ⟨p, hp, h⟩ := bind_eq_ok.mp h
      refine ⟨s, p, mapError_eq_ok.mp hs, hconflict, mapError_eq_ok.mp hp, ?_⟩
      cases as <;> exact Except.ok.inj h
  · rintro ⟨s, p, hs, hconflict, hp, rfl⟩
    refine bind_eq_ok.mpr ⟨s, mapError_eq_ok.mpr hs, ?_⟩
    rw [hconflict]
    refine bind_eq_ok.mpr ⟨p, mapError_eq_ok.mpr hp, ?_⟩
    cases as <;> rfl

/-- When the configuration can be printed in one form it is printed in both, and nothing else happens. -/
theorem exists_printed (h : (w.execute (.config baseDir as)).code = 0) :
    ∃ s p, w.settings false none baseDir false = .ok s ∧ Config.conflict? w.files s.baseDir = none ∧
      Config.load w.files s.baseDir defaultEngine s.overrides = .ok p ∧
      ∀ as, w.execute (.config baseDir as) = ⟨0, printed p as, none, w.files⟩ := by
  unfold execute at h
  dsimp only at h
  split at h
  · next text htext =>
    obtain ⟨s, p, hs, hconflict, hload, -⟩ := configText_eq_ok_iff.mp htext
    refine ⟨s, p, hs, hconflict, hload, fun as => ?_⟩
    rw [execute, configText_eq_ok_iff.mpr ⟨s, p, hs, hconflict, hload, rfl⟩]
  · cases h

/-- The configuration that is printed for a directory reloads to itself, without what took precedence over it:
alone in an empty directory, from a file of its own or from the section of a package description. -/
theorem config_reloads (h : (w.execute (.config baseDir as)).code = 0) :
    ∃ s p, w.settings false none baseDir false = .ok s ∧ Config.conflict? w.files s.baseDir = none ∧
      Config.load w.files s.baseDir defaultEngine s.overrides = .ok p ∧
      (∀ as, w.execute (.config baseDir as) = ⟨0, printed p as, none, w.files⟩) ∧
      Config.IsSection (Json.wrapped Config.packageKey (printed p .json)) (printed p .json) ∧
      ∀ (t : FileTree) (dir : String), t.IsEmptyDirectory dir →
        (∃ u, t.write? (Path.join dir Config.rcFile) (printed p .toml) = some u ∧
          Config.load u dir defaultEngine {} = .ok p) ∧
        ∀ description, Config.IsSection description (printed p .json) →
          ∃ u, t.write? (Path.join dir Config.packageFile) description = some u ∧
            Config.load u dir defaultEngine {} = .ok p := by
  obtain ⟨s, p, hs, hconflict, hload, hprinted⟩ := exists_printed h
  have haccepted := Config.accepted_of_load hload
  refine ⟨s, p, hs, hconflict, hload, hprinted, Config.isSection_wrapped p, fun t dir hempty => ⟨?_, ?_⟩⟩
  · obtain ⟨u, hu⟩ := hempty.exists_update? Config.isName_rcFile fun _ => .text p.toToml
    exact ⟨u, hu, haccepted.load_of_toml (FileTree.readText?_write? hu)⟩
  · intro description hsection
    obtain ⟨u, hu⟩ := hempty.exists_update? Config.isName_packageFile fun _ => .text description
    have hrc : u.isFile (Path.join dir Config.rcFile) = false := by
      have hsame := (FileTree.SameBut.of_update? hu).contents?_join Config.isName_packageFile
        Config.isName_rcFile (by decide)
      rw [FileTree.isFile, hsame, hempty.contents? Config.isName_rcFile]
      rfl
    exact ⟨u, hu, haccepted.load_of_package hrc (FileTree.readText?_write? hu) hsection⟩

/-- A world with a window for a rule whose name needs quotes, and a general window one side of which the
environment sets. -/
def exampleWorld : World where
  files.root := .directory [(Config.rcFile, .file (.text
    "[days_to_decay]\nwarn = 3\n\n[days_to_decay_by_rule.\"at-rule no.unknown\"]\n"))]
  cwd := ""
  environment := [("TODO_DAYS_TO_ERROR", "9")]
  input := none
  today := FileLedger.exampleDay

/-- What is printed in the example has both sides of the general window, and is loaded without the
environment. -/
theorem config_reloads_of_example :
    (exampleWorld.execute (.config none .json)).code = 0 ∧ Run.noFiles.IsEmptyDirectory "" ∧
      ∃ s p, exampleWorld.settings false none none false = .ok s ∧
        Config.load exampleWorld.files s.baseDir defaultEngine s.overrides = .ok p ∧
        printed p .toml = "[days_to_decay]\nwarn = 3\nerror = 9\n\n" ++
          "[days_to_decay_by_rule.\"at-rule no.unknown\"]\n" ∧
        (∃ u, Run.noFiles.write? (Path.join "" Config.rcFile) (printed p .toml) = some u ∧
          Config.load u "" defaultEngine {} = .ok p) ∧
        ∃ u, Run.noFiles.write? (Path.join "" Config.packageFile)
            (Json.wrapped Config.packageKey (printed p .json)) = some u ∧
          Config.load u "" defaultEngine {} = .ok p := by
  have hcode : (exampleWorld.execute (.config none .json)).code = 0 := by decide +kernel
  have houtput : (exampleWorld.execute (.config none .toml)).output =
      "[days_to_decay]\nwarn = 3\nerror = 9\n\n[days_to_decay_by_rule.\"at-rule no.unknown\"]\n" := by
    decide +kernel
  obtain ⟨s, p, hs, -, hload, hprinted, hsection, hreload⟩ := config_reloads hcode
  obtain ⟨htoml, hjson⟩ := hreload Run.noFiles "" Config.isEmptyDirectory_noFiles
  rw [hprinted .toml] at houtput
  exact ⟨hcode, Config.isEmptyDirectory_noFiles, s, p, hs, hload, houtput, htoml, hjson _ hsection⟩

end World

end LintDebt
