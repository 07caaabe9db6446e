import LintDebt.Proofs.Ledger.Appending

/-!
# What the configuration depends on

The configuration of a directory depends on its two sources alone.

* `LintDebt.Config.conflict?_congr`: what is wrong with the sources.
* `LintDebt.Config.source_congr`, `LintDebt.Config.load_congr`: the configuration, and the policy that counts
  for an engine.
* `LintDebt.Config.load_of_no_source`: without a configuration nothing decays.
* `LintDebt.LedgerError.inSource`, `LintDebt.Config.inSource_of_source`: the causes for which a source cannot be
  used.
* `LintDebt.FileLedger.invariant_sameBut`: a ledger changes its log alone.
* `LintDebt.Run.prepare_of_sameBut`: the log has no part in how a run is prepared.
-/

namespace LintDebt.Config

variable {t u : FileTree} {baseDir : String}

/-- A source that holds the same reads the same. -/
theorem read_congr {path : String} (h : u.contents? path = t.contents? path) :
    read u path = read t path := by
  unfold read FileTree.readText?
  rw [h]

/-- A package description that holds the same has the same section. -/
theorem packageSection_congr
    (h : u.contents? (Path.join baseDir packageFile) = t.contents? (Path.join baseDir packageFile)) :
    packageSection u baseDir = packageSection t baseDir := by
  unfold packageSection FileTree.isFile
  dsimp only
  rw [read_congr h, h]

/-- The same is wrong with sources that hold the same. -/
theorem conflict?_congr
    (hrc : u.contents? (Path.join baseDir rcFile) = t.contents? (Path.join baseDir rcFile))
    (hpackage : u.contents? (Path.join baseDir packageFile) =
      t.contents? (Path.join baseDir packageFile)) :
    conflict? u baseDir = conflict? t baseDir := by
  unfold conflict? FileTree.isFile
  rw [packageSection_congr hpackage, hrc]

/-- The same configuration stands in sources that hold the same. -/
theorem source_congr
    (hrc : u.contents? (Path.join baseDir rcFile) = t.contents? (Path.join baseDir rcFile))
    (hpackage : u.contents? (Path.join baseDir packageFile) =
      t.contents? (Path.join baseDir packageFile)) :
    source u baseDir = source t baseDir := by
  unfold source FileTree.isFile
  dsimp only
  rw [packageSection_congr hpackage, read_congr hrc, hrc]

/-- The same policy counts where the sources hold the same. -/
theorem load_congr
    (hrc : u.contents? (Path.join baseDir rcFile) = t.contents? (Path.join baseDir rcFile))
    (hpackage : u.contents? (Path.join baseDir packageFile) =
      t.contents? (Path.join baseDir packageFile)) :
    load u baseDir = load t baseDir := by
  funext engine overrides
  unfold load
  rw [source_congr hrc hpackage]

/-- Without its sources there is no configuration. -/
theorem source_of_missing (hrc : t.contents? (Path.join baseDir rcFile) = none)
    (hpackage : t.contents? (Path.join baseDir packageFile) = none) : source t baseDir = .ok none := by
  unfold source packageSection FileTree.isFile
  dsimp only
  rw [hrc, hpackage]
  rfl

/-- Without a configuration nothing is wrong with its sources. -/
theorem conflict?_of_no_source (hsource : source t baseDir = .ok none) : conflict? t baseDir = none := by
  have hrc : t.isFile (Path.join baseDir rcFile) = false := by
    unfold source at hsource
    dsimp only at hsource
    split at hsource
    · obtain ⟨text, -, hparsed⟩ := bind_eq_ok.mp hsource
      split at hparsed <;> cases hparsed
    · next hnone => exact Bool.eq_false_iff.mpr hnone
  unfold conflict?
  dsimp only
  rw [hrc, Bool.false_and, if_neg Bool.false_ne_true]

/-- Without a configuration, and without a window that takes precedence, todos do not decay. -/
theorem load_of_no_source {engine : String} {overrides : DecayWindow} (hsource : source t baseDir = .ok none)
    (hoverrides : overrides.isEmpty = true) : load t baseDir engine overrides = .ok {} := by
  unfold load
  rw [hsource]
  show check (override overrides {}) = .ok {}
  rw [override, if_pos hoverrides]
  rfl

end LintDebt.Config

/-! ## Sources that cannot be used -/

namespace LintDebt

/-- Whether a cause lies in a source of the configuration: it cannot be read, or not be understood. -/
def LedgerError.inSource : LedgerError → Bool
  | .unreadableConfig _ | .file .readConfig _ => true
  | _ => false

namespace Config

variable {files : FileTree} {baseDir : String} {c : LedgerError}

/-- A file of the configuration that cannot be read is a cause in a source. -/
theorem inSource_of_read {path : String} (h : read files path = .error c) : c.inSource = true := by
  unfold read at h
  split at h
  · cases h
  · cases h
    rfl

/-- What is wrong with the package description is a cause in a source. -/
theorem inSource_of_packageSection (h : packageSection files baseDir = .error c) : c.inSource = true := by
  unfold packageSection at h
  dsimp only at h
  split at h
  · cases h
  · rcases bind_eq_error.mp h with hread | ⟨text, -, hparse⟩
    · exact inSource_of_read hread
    · split at hparse
      · cases hparse
        rfl
      · cases hparse

/-- What is wrong with the configuration as it stands in its source is a cause in a source. -/
theorem inSource_of_source (h : source files baseDir = .error c) : c.inSource = true := by
  unfold source at h
  dsimp only at h
  split at h
  · rcases bind_eq_error.mp h with hread | ⟨text, -, hparse⟩
    · exact inSource_of_read hread
    · split at hparse
      · cases hparse
        rfl
      · cases hparse
  · rcases bind_eq_error.mp h with hsection | ⟨found, -, hfound⟩
    · exact inSource_of_packageSection hsection
    · cases hfound

end Config

end LintDebt

namespace LintDebt

/-- The name of the file that holds the configuration alone names an entry of its directory. -/
theorem Config.isName_rcFile : FileTree.IsName rcFile :=
  ⟨by decide, by decide, by decide, by decide⟩

/-- So does the name of the package description. -/
theorem Config.isName_packageFile : FileTree.IsName packageFile :=
  ⟨by decide, by decide, by decide, by decide⟩

/-- The sources of the configuration lie beside the log. -/
theorem FileLedger.contents?_config {l m : FileLedger}
    (h : FileTree.SameBut l.storagePath l.files m.files) :
    m.files.contents? (Path.join l.baseDir Config.rcFile) =
        l.files.contents? (Path.join l.baseDir Config.rcFile) ∧
      m.files.contents? (Path.join l.baseDir Config.packageFile) =
        l.files.contents? (Path.join l.baseDir Config.packageFile) :=
  ⟨h.contents?_join isName_storageFile Config.isName_rcFile (by decide),
    h.contents?_join isName_storageFile Config.isName_packageFile (by decide)⟩

/-- Whatever happens to a ledger, it stays in its directory, and its files differ from what they were in the
log alone. -/
theorem FileLedger.invariant_sameBut (l : FileLedger) : Invariant fun m =>
    m.baseDir = l.baseDir ∧ FileTree.SameBut l.storagePath l.files m.files where
  remember h _ := h
  append {m files entries} h hfiles := by
    rw [storagePath_congr h.1] at hfiles
    exact ⟨h.1, h.2.trans (.of_update? hfiles)⟩
  rewrite {m files entries} h _ hfiles := by
    rw [storagePath_congr h.1] at hfiles
    exact ⟨h.1, h.2.trans (.of_update? hfiles)⟩

namespace Run

variable {l m : FileLedger}

/-- Ledgers whose files differ in the log alone find the same problem in the configuration. -/
theorem configProblem?_of_sameBut (hdir : m.baseDir = l.baseDir)
    (hfiles : FileTree.SameBut l.storagePath l.files m.files) :
    Ledger.configProblem? m = Ledger.configProblem? l := by
  obtain ⟨hrc, hpackage⟩ := FileLedger.contents?_config hfiles
  show Config.conflict? m.files m.baseDir = Config.conflict? l.files l.baseDir
  rw [hdir, Config.conflict?_congr hrc hpackage]

/-- Ledgers whose files differ in the log alone have the same policies. -/
theorem policy_of_sameBut (hdir : m.baseDir = l.baseDir)
    (hfiles : FileTree.SameBut l.storagePath l.files m.files) (engine : String)
    (overrides : DecayWindow) : Ledger.policy m engine overrides = Ledger.policy l engine overrides := by
  obtain ⟨hrc, hpackage⟩ := FileLedger.contents?_config hfiles
  show Config.load m.files m.baseDir _ _ = Config.load l.files l.baseDir _ _
  rw [hdir, Config.load_congr hrc hpackage]

/-- A run is prepared in the same way on ledgers whose files differ in the log alone. -/
theorem prepare_of_sameBut (hdir : m.baseDir = l.baseDir)
    (hfiles : FileTree.SameBut l.storagePath l.files m.files) (o : RunOptions) :
    prepare o m = prepare o l := by
  unfold prepare
  rw [configProblem?_of_sameBut hdir hfiles, policy_of_sameBut hdir hfiles]

end Run

end LintDebt
