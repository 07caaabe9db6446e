import LintDebt.Proofs.Decay
import LintDebt.Proofs.Report.Json

/-!
# Policies read back

The windows of a policy stand in the order of the names of their rules.  Written in JSON, such a policy reads
back, and it is mistaken neither for a window nor for the section of an engine.

* `LintDebt.RuleWindows.Sorted`: windows in the order of the names.
* `LintDebt.RuleWindows.ofList_of_sorted`: such windows are put in order as they stand.
* `LintDebt.DecayPolicy.ofJson?_toJson`: a policy reads back.
* `LintDebt.Config.sectionFor?_toJson`: the whole of it counts for an engine that is no field of it.
* `LintDebt.Config.Accepted`, `LintDebt.Config.accepted_of_load`: what is true of every policy that is loaded.
* `LintDebt.Config.Accepted.load_of_source`: such a policy is loaded from a source that holds it.
-/

namespace LintDebt

/-! ## Windows in the order of names -/

namespace RuleWindows

variable {ws : RuleWindows} {rule : String} {window : DecayWindow}

/-- Windows in the order of the names of their rules, one for each. -/
def Sorted (ws : RuleWindows) : Prop :=
  (ws.map Prod.fst).Pairwise (· < ·)

/-- The rules of windows with a new one are that rule and those there were. -/
theorem mem_names_insert {name : String} :
    name ∈ (insert rule window ws).map Prod.fst ↔ name = rule ∨ name ∈ ws.map Prod.fst := by
  induction ws with
  | nil => simp [insert]
  | cons entry rest ih =>
    obtain ⟨r, w⟩ := entry
    unfold insert
    split
    · simp
    · split
      · next hsame => simp [hsame]
      · rw [List.map_cons, List.mem_cons, ih, List.map_cons, List.mem_cons]
        exact or_left_comm

/-- Setting the window of a rule keeps the order. -/
theorem sorted_insert (h : Sorted ws) : Sorted (insert rule window ws) := by
  induction ws with
  | nil => exact List.pairwise_singleton _ _
  | cons entry rest ih =>
    obtain ⟨r, w⟩ := entry
    obtain ⟨hfirst, hrest⟩ := List.pairwise_cons.mp h
    unfold insert
    split
    · next hlt =>
      refine List.pairwise_cons.mpr ⟨fun name hname => ?_, h⟩
      rcases List.mem_cons.mp hname with rfl | hname
      · exact hlt
      · exact String.lt_trans hlt (hfirst name hname)
    · next hlt =>
      split
      · next hsame =>
        subst hsame
        exact h
      · next hne =>
        refine List.pairwise_cons.mpr ⟨fun name hname => ?_, ih hrest⟩
        rcases mem_names_insert.mp hname with rfl | hname
        · exact String.not_le.mp fun hle => hne (String.le_antisymm hle (String.not_lt.mp hlt))
        · exact hfirst name hname

/-- Setting the windows of several rules keeps it too. -/
theorem sorted_foldl_insert (windows : List (String × DecayWindow)) (h : Sorted ws) :
    Sorted (windows.foldl (fun ws (rule, window) => insert rule window ws) ws) := by
  induction windows generalizing ws with
  | nil => exact h
  | cons entry rest ih => exact ih (sorted_insert h)

/-- The windows of a list of rules are in order. -/
theorem sorted_ofList (windows : List (String × DecayWindow)) : Sorted (ofList windows) :=
  sorted_foldl_insert windows List.Pairwise.nil

/-- A rule whose name comes behind all others comes last. -/
theorem insert_of_forall_lt (h : ∀ name ∈ ws.map Prod.fst, name < rule) :
    insert rule window ws = ws ++ [(rule, window)] := by
  induction ws with
  | nil => rfl
  | cons entry rest ih =>
    obtain ⟨r, w⟩ := entry
    have hr : r < rule := h r List.mem_cons_self
    have hne : rule ≠ r := by
      rintro rfl
      exact String.lt_irrefl rule hr
    rw [insert, if_neg (String.lt_asymm hr), if_neg hne, ih fun name hname =>
      h name (List.mem_cons_of_mem r hname), List.cons_append]

/-- Windows that go on in order are set one behind the other. -/
theorem foldl_insert_of_sorted (ws : RuleWindows) {rest : RuleWindows} (h : Sorted (ws ++ rest)) :
    rest.foldl (fun ws (rule, window) => insert rule window ws) ws = ws ++ rest := by
  induction rest generalizing ws with
  | nil => exact (List.append_nil ws).symm
  | cons entry rest ih =>
    obtain ⟨rule, window⟩ := entry
    have hlast : insert rule window ws = ws ++ [(rule, window)] := by
      refine insert_of_forall_lt fun name hname => ?_
      unfold Sorted at h
      rw [List.map_append] at h
      exact (List.pairwise_append.mp h).2.2 name hname rule List.mem_cons_self
    have hcons : ws ++ (rule, window) :: rest = ws ++ [(rule, window)] ++ rest := by
      rw [List.append_assoc]
      rfl
    rw [List.foldl_cons]
    dsimp only
    rw [hlast, hcons]
    exact ih _ (hcons ▸ h)

/-- Windows that are in order stay as they are. -/
theorem ofList_of_sorted (h : Sorted ws) : ofList ws = ws :=
  foldl_insert_of_sorted [] h

/-- Windows in order are for different rules. -/
theorem Sorted.nodup (h : Sorted ws) : (ws.map Prod.fst).Nodup := by
  refine List.Pairwise.imp ?_ h
  rintro a b hlt rfl
  exact String.lt_irrefl a hlt

end RuleWindows

/-! ## Policies in JSON -/

/-- The slots of a window in JSON. -/
def DecayWindow.slots (w : DecayWindow) : List (String × Option Json) :=
  [("warn", w.warn.map Json.uint32), ("error", w.error.map Json.uint32)]

/-- Windows read back. -/
theorem DecayWindow.lossless : Json.Lossless ofJson? toJson := by
  refine .of_slots ["warn", "error"] slots ?_ (fun _ => rfl) (by decide) ?_ ?_
  · rintro ⟨_ | warn, _ | error⟩ <;> rfl
  · intro w
    simp only [slots, List.forall_mem_cons]
    exact ⟨Json.lossless_uint32.slot_map _, Json.lossless_uint32.slot_map _, List.forall_mem_nil _⟩
  · intro w j h
    simp only [slots, List.map_cons, List.map_nil] at h
    unfold ofJson?
    rw [h]
    simp only [Option.bind_eq_bind, Option.bind_some, Json.lossless_uint32.optional_slot_map]

/-- A window nests nothing. -/
theorem DecayWindow.depth_toJson (w : DecayWindow) : w.toJson.depth = 1 := by
  obtain ⟨_ | warn, _ | error⟩ := w <;> rfl

/-- In a window no name stands twice. -/
theorem DecayWindow.merged_toJson (w : DecayWindow) : w.toJson.merged = w.toJson := by
  obtain ⟨_ | warn, _ | error⟩ := w <;> rfl

/-- Members of different names stay, each merged. -/
theorem Json.mergedMembers_of_nodup {members : List (String × Json)} (h : (members.map Prod.fst).Nodup) :
    mergedMembers members = members.map fun m => (m.1, m.2.merged) := by
  induction members with
  | nil => rfl
  | cons m rest ih =>
    obtain ⟨name, value⟩ := m
    obtain ⟨hnew, hrest⟩ := List.nodup_cons.mp h
    rw [mergedMembers, ih hrest, if_neg]
    · rfl
    · simpa using hnew

/-- The last member of a name is found behind the first member, or is that one. -/
theorem Json.get?_obj_cons (m : String × Json) (members : List (String × Json)) (name : String) :
    (Json.obj (m :: members)).get? name =
      ((Json.obj members).get? name).or (if m.1 == name then some m.2 else none) := by
  unfold get?
  dsimp only
  rw [List.reverse_cons, List.find?_append, List.find?_cons, List.find?_nil]
  cases members.reverse.find? (·.1 == name) <;> cases m.1 == name <;> rfl

/-- An object has a member of a name when one of its members has that name. -/
theorem Json.isSome_get?_obj (members : List (String × Json)) (name : String) :
    ((Json.obj members).get? name).isSome = members.any (·.1 == name) := by
  induction members with
  | nil => rfl
  | cons m rest ih =>
    rw [get?_obj_cons, Option.isSome_or, ih, List.any_cons, Bool.or_comm]
    cases m.1 == name <;> rfl

/-- The member of a name in a merged object is that of the object, merged. -/
theorem Json.get?_merged (j : Json) (name : String) : j.merged.get? name = (j.get? name).map merged := by
  cases j with
  | obj members =>
    rw [merged]
    induction members with
    | nil => rfl
    | cons m rest ih =>
      obtain ⟨other, value⟩ := m
      rw [mergedMembers, get?_obj_cons, Option.map_or, ← ih]
      dsimp only
      split
      · next hlater =>
        -- the last member of the other name stands behind, so the first does not count
        by_cases hname : other = name
        · subst hname
          rw [← isSome_get?_obj] at hlater
          rw [Option.or_of_isSome hlater]
        · rw [if_neg (by simpa using hname), Option.map_none, Option.or_none]
      · rw [get?_obj_cons]
        congr 1
        cases other == name <;> rfl
  | null | bool | int | decimal | str | arr | illegible => rfl

namespace DecayPolicy

variable {p : DecayPolicy}

/-- The windows of single rules in JSON. -/
def rulesJson (p : DecayPolicy) : Json :=
  .obj (p.byRule.map fun (rule, w) => (rule, w.toJson))

/-- The windows of single rules, if there are any, in JSON. -/
def rulesJson? (p : DecayPolicy) : Option Json :=
  if p.byRule.isEmpty then none else some p.rulesJson

/-- A policy is written as the slots of its two fields. -/
theorem toJson_eq (p : DecayPolicy) : p.toJson = .obj (Json.given
    [("days_to_decay", p.window.map DecayWindow.toJson), ("days_to_decay_by_rule", p.rulesJson?)]) := by
  unfold toJson rulesJson?
  obtain ⟨_ | w, ws⟩ := p <;> cases ws <;> rfl

/-- The windows of single rules read back. -/
theorem map?_rulesJson (p : DecayPolicy) : Json.map? DecayWindow.ofJson? p.rulesJson = some p.byRule := by
  unfold rulesJson
  induction p.byRule with
  | nil => rfl
  | cons entry rest ih =>
    unfold Json.map? at ih ⊢
    dsimp only at ih ⊢
    rw [List.map_cons, List.mapM_cons, ih]
    simp [DecayWindow.lossless.read_write]

/-- A policy reads back when its windows are in order. -/
theorem ofJson?_toJson (h : RuleWindows.Sorted p.byRule) : ofJson? p.toJson = some p := by
  have hfields : p.toJson.fields? fields = some [p.window.map DecayWindow.toJson, p.rulesJson?] := by
    rw [toJson_eq]
    obtain ⟨_ | w, ws⟩ := p <;> cases ws <;> rfl
  have hrules : Json.orDefault [] (Json.map? DecayWindow.ofJson?) p.rulesJson? = some p.byRule := by
    unfold rulesJson?
    split
    · next hempty =>
      rw [List.isEmpty_iff.mp hempty]
      rfl
    · exact map?_rulesJson p
  unfold ofJson?
  rw [hfields]
  simp only [Option.bind_eq_bind, Option.bind_some, DecayWindow.lossless.optional_slot_map, hrules,
    RuleWindows.ofList_of_sorted h]

/-- The windows of single rules are sound, and nest one more level than a window. -/
theorem isSound_rulesJson (p : DecayPolicy) : p.rulesJson.isSound = true ∧ p.rulesJson.depth ≤ 2 := by
  have hmember (m : String × Json) (hm : m ∈ p.byRule.map fun (rule, w) => (rule, w.toJson)) :
      m.2.isSound = true ∧ m.2.depth ≤ 1 := by
    obtain ⟨⟨rule, w⟩, -, rfl⟩ := List.mem_map.mp hm
    exact ⟨DecayWindow.lossless.isSound_write w, w.depth_toJson.le⟩
  exact ⟨(Json.areSoundMembers_iff _).mpr fun m hm => (hmember m hm).1,
    Nat.succ_le_succ ((Json.depthMembers_le_iff _ 1).mpr fun m hm => (hmember m hm).2)⟩

/-- What stands in the slots of a policy is sound and nests at most two levels. -/
theorem isSound_of_mem_given {m : String × Json} (hm : m ∈ Json.given
    [("days_to_decay", p.window.map DecayWindow.toJson), ("days_to_decay_by_rule", p.rulesJson?)]) :
    m.2.isSound = true ∧ m.2.depth ≤ 2 := by
  obtain ⟨slot, hslot, hvalue⟩ := List.mem_flatMap.mp hm
  obtain ⟨value, hmem, rfl⟩ := List.mem_map.mp hvalue
  rw [Option.mem_toList] at hmem
  rcases List.mem_cons.mp hslot with rfl | hslot
  · obtain ⟨w, -, rfl⟩ := Option.map_eq_some_iff.mp hmem
    exact ⟨DecayWindow.lossless.isSound_write w, w.depth_toJson.le.trans (by decide)⟩
  · obtain rfl := List.mem_singleton.mp hslot
    unfold rulesJson? at hmem
    split at hmem
    · cases hmem
    · cases hmem
      exact p.isSound_rulesJson

/-- A strict reader takes a policy, and also one that stands in an object. -/
theorem isStrict_toJson (p : DecayPolicy) (name : String) :
    p.toJson.isSound = true ∧ (Json.obj [(name, p.toJson)]).isStrict = true := by
  have hsound : p.toJson.isSound = true := by
    rw [toJson_eq]
    exact (Json.areSoundMembers_iff _).mpr fun m hm => (isSound_of_mem_given hm).1
  have hdepth : p.toJson.depth ≤ 3 := by
    rw [toJson_eq]
    exact Nat.succ_le_succ ((Json.depthMembers_le_iff _ 2).mpr fun m hm => (isSound_of_mem_given hm).2)
  refine ⟨hsound, Json.isStrict_obj fun m hm => ?_⟩
  obtain rfl := List.mem_singleton.mp hm
  exact ⟨hsound, Nat.lt_of_le_of_lt hdepth (by decide)⟩

/-- In a policy with windows for different rules no name stands twice. -/
theorem merged_toJson (h : (p.byRule.map Prod.fst).Nodup) : p.toJson.merged = p.toJson := by
  have hrules : p.rulesJson.merged = p.rulesJson := by
    have hnodup : ((p.byRule.map fun (rule, w) => (rule, w.toJson)).map Prod.fst).Nodup := by
      rwa [List.map_map]
    unfold rulesJson
    rw [Json.merged, Json.mergedMembers_of_nodup hnodup, List.map_map]
    exact congrArg Json.obj (List.map_congr_left fun (rule, w) _ => by simp [w.merged_toJson])
  rw [toJson_eq]
  unfold rulesJson?
  obtain ⟨_ | w, ws⟩ := p <;> cases ws <;>
    simp [Json.given, Json.merged, Json.mergedMembers, DecayWindow.merged_toJson, hrules]

end DecayPolicy

/-! ## Loading -/

namespace Config

variable {files : FileTree} {baseDir engine : String} {overrides : DecayWindow} {p : DecayPolicy}

/-- A policy is taken as a whole for an engine that is no field of it: nothing in it is the side of a
window. -/
theorem sectionFor?_toJson (h : RuleWindows.Sorted p.byRule) (hgeneral : engine ≠ "days_to_decay")
    (hrules : engine ≠ "days_to_decay_by_rule") : sectionFor? engine p.toJson = some p := by
  have hget (name : String) (hgeneral : name ≠ "days_to_decay") (hrules : name ≠ "days_to_decay_by_rule") :
      p.toJson.get? name = none := by
    rw [← Option.not_isSome_iff_eq_none, DecayPolicy.toJson_eq, Json.isSome_get?_obj, List.any_eq_true]
    rintro ⟨m, hm, hname⟩
    obtain ⟨slot, hslot, hvalue⟩ := List.mem_flatMap.mp hm
    obtain ⟨value, -, rfl⟩ := List.mem_map.mp hvalue
    rw [beq_iff_eq] at hname
    rcases List.mem_cons.mp hslot with rfl | hslot
    · exact hgeneral hname.symm
    · obtain rfl := List.mem_singleton.mp hslot
      exact hrules hname.symm
  unfold sectionFor?
  rw [hget engine hgeneral hrules, hget "warn" (by decide) (by decide),
    hget "error" (by decide) (by decide)]
  exact DecayPolicy.ofJson?_toJson h

/-- Windows that are read are in order. -/
theorem sorted_of_ofJson? {j : Json} (h : DecayPolicy.ofJson? j = some p) :
    RuleWindows.Sorted p.byRule := by
  obtain ⟨given, -, h⟩ := Option.bind_eq_some_iff.mp h
  split at h
  · obtain ⟨window, -, h⟩ := Option.bind_eq_some_iff.mp h
    obtain ⟨rules, -, h⟩ := Option.bind_eq_some_iff.mp h
    cases h
    exact RuleWindows.sorted_ofList rules
  · cases h

/-- So are those of the part of a configuration that counts for an engine. -/
theorem sorted_of_sectionFor? {raw : Json} (h : sectionFor? engine raw = some p) :
    RuleWindows.Sorted p.byRule := by
  unfold sectionFor? at h
  split at h
  · exact sorted_of_ofJson? h
  · split at h
    · obtain ⟨window, -, rfl⟩ := Option.map_eq_some_iff.mp h
      exact List.Pairwise.nil
    · exact sorted_of_ofJson? h

/-- A policy that can be loaded: its windows stand in the order of their rules, and none is inverted. -/
structure Accepted (p : DecayPolicy) : Prop where
  sorted : RuleWindows.Sorted p.byRule
  check : check p = .ok p

/-- What is loaded can be loaded. -/
theorem accepted_of_load (h : load files baseDir engine overrides = .ok p) : Accepted p := by
  rcases exists_decodes_or files baseDir engine overrides with ⟨q, hq⟩ | ⟨c, hc, -⟩
  · rw [hq.load_eq] at h
    obtain ⟨rfl, hnone⟩ := check_eq_ok_iff.mp h
    refine ⟨?_, check_eq_ok_iff.mpr ⟨rfl, hnone⟩⟩
    rw [byRule_override]
    rcases hq with ⟨-, rfl⟩ | ⟨path, raw, -, hsection⟩
    · exact List.Pairwise.nil
    · exact sorted_of_sectionFor? hsection
  · rw [hc] at h
    cases h

/-- Such a policy is loaded from a source that holds it, without overrides. -/
theorem Accepted.load_of_source (h : Accepted p) {path : String}
    (hsource : source files baseDir = .ok (some (path, p.toJson))) :
    load files baseDir defaultEngine {} = .ok p := by
  have hdecodes : Decodes files baseDir defaultEngine p :=
    .inr ⟨path, p.toJson, hsource, sectionFor?_toJson h.sorted (by decide) (by decide)⟩
  rw [hdecodes.load_eq]
  exact h.check

end Config

end LintDebt
