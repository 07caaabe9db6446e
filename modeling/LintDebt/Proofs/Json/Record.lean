import LintDebt.Json.Record
import LintDebt.Proofs.Text.Digits

/-!
# Written records read back

The members of a record are seen as slots: every field has a name and, perhaps, a value.

* `LintDebt.Json.given`: the members that some slots give.
* `LintDebt.Json.lookup?_given`, `fields?_given`: slots of different names are found again.
* `LintDebt.Json.optional_map`, `uint32?_uint32`: values of simple types read back.
* `LintDebt.Json.isStrict_obj`: when a strict reader takes an object.
-/

namespace LintDebt

namespace Json

/-! ## Slots -/

/-- The members of a record: of each name the value, where there is one. -/
def given (slots : List (String × Option Json)) : List (String × Json) :=
  slots.flatMap fun slot => slot.2.toList.map (slot.1, ·)

/-- A member that is written in any case is a slot with a value. -/
theorem always_append_given (name : String) (value : Json) (slots : List (String × Option Json)) :
    always name value ++ given slots = given ((name, some value) :: slots) := rfl

/-- A member that is written only with a value is a slot. -/
theorem whenSome_append_given {α : Type} (name : String) (write : α → Json) (value : Option α)
    (slots : List (String × Option Json)) :
    whenSome name write value ++ given slots = given ((name, value.map write) :: slots) := by
  cases value <;> rfl

/-- Of the members of a record, those that another name is looked for are passed over. -/
theorem filter_given_of_not_mem {name : String} {slots : List (String × Option Json)}
    (h : name ∉ slots.map Prod.fst) :
    (given slots).filter (Field.answersTo ⟨name, none⟩ ·.1) = [] := by
  rw [List.filter_eq_nil_iff]
  intro member hmember hanswers
  obtain ⟨slot, hslot, hvalue⟩ := List.mem_flatMap.mp hmember
  obtain ⟨value, -, rfl⟩ := List.mem_map.mp hvalue
  have hname : name = slot.1 := by simpa [Field.answersTo] using hanswers
  exact h (hname ▸ List.mem_map.mpr ⟨slot, hslot, rfl⟩)

/-- A field of a record whose slots have different names is looked up as its slot says. -/
theorem lookup?_given (slots : List (String × Option Json)) (hn : (slots.map Prod.fst).Nodup)
    {name : String} {value : Option Json} (hm : (name, value) ∈ slots) :
    Field.lookup? ⟨name, none⟩ (given slots) = some value := by
  induction slots with
  | nil => cases hm
  | cons slot slots ih =>
    rw [List.map_cons, List.nodup_cons] at hn
    have hsplit : given (slot :: slots) = slot.2.toList.map (slot.1, ·) ++ given slots := rfl
    unfold Field.lookup? at ih ⊢
    rw [hsplit, List.filter_append]
    rcases List.mem_cons.mp hm with rfl | hm
    · rw [filter_given_of_not_mem hn.1, List.append_nil]
      cases value with
      | none => rfl
      | some j => simp [Field.answersTo]
    · have hne : slot.1 ≠ name := by
        rintro rfl
        exact hn.1 (List.mem_map.mpr ⟨_, hm, rfl⟩)
      have hpass : (slot.2.toList.map (slot.1, ·)).filter (Field.answersTo ⟨name, none⟩ ·.1) = [] := by
        cases slot.2 <;> simp [Field.answersTo, Ne.symm hne]
      rw [hpass, List.nil_append]
      exact ih hn.2 hm

/-- The fields of a record whose slots have different names are found as the slots say; slots that
are not asked for do not matter. -/
theorem fields?_given (slots wanted : List (String × Option Json))
    (hn : (slots.map Prod.fst).Nodup) (hw : wanted ⊆ slots) :
    (Json.obj (given slots)).fields? (fieldNames (wanted.map Prod.fst)) =
      some (wanted.map Prod.snd) := by
  induction wanted with
  | nil => rfl
  | cons slot wanted ih =>
    obtain ⟨hslot, hwanted⟩ := List.cons_subset.mp hw
    have hfound : Field.lookup? ⟨slot.1, none⟩ (given slots) = some slot.2 :=
      lookup?_given slots hn hslot
    have hrest := ih hwanted
    simp only [fields?, fieldNames, List.map_cons, List.mapM_cons] at hrest ⊢
    rw [hfound, hrest]
    rfl

/-! ## Values -/

/-- An optional field reads back when its values do, as none of them is written as `null`. -/
theorem optional_map {α : Type} {read : Json → Option α} {write : α → Json}
    (hread : ∀ a, read (write a) = some a) (hnull : ∀ a, write a ≠ .null) (value : Option α) :
    optional read (value.map write) = some value := by
  cases value with
  | none => rfl
  | some a =>
    rw [Option.map_some, optional.eq_def]
    split
    · next h => cases h
    · next h => exact absurd (Option.some.inj h) (hnull a)
    · next h =>
      cases h
      rw [hread]
      rfl

/-- A number of 32 bits reads back. -/
theorem uint32?_uint32 (n : UInt32) : uint32? (uint32 n) = some n := by
  have hlt : (n.toNat : Int) < (UInt32.size : Nat) := by exact_mod_cast n.toNat_lt
  have hread : natBelow? UInt32.size (.int n.toNat) = some n.toNat := by
    rw [natBelow?, if_pos ⟨Int.natCast_nonneg _, hlt⟩, Int.toNat_natCast]
  show (natBelow? UInt32.size (.int n.toNat)).map UInt32.ofNat = some n
  rw [hread, Option.map_some, UInt32.ofNat_toNat]

/-! ## Strict readers -/

/-- The members of an object are sound when each of their values is. -/
theorem areSoundMembers_iff (members : List (String × Json)) :
    areSoundMembers members = true ↔ ∀ m ∈ members, m.2.isSound = true := by
  induction members with
  | nil => simp [areSoundMembers]
  | cons m members ih => simp [areSoundMembers, ih]

/-- The members of an object are no deeper than the deepest of their values. -/
theorem depthMembers_le_iff (members : List (String × Json)) (k : Nat) :
    depthMembers members ≤ k ↔ ∀ m ∈ members, m.2.depth ≤ k := by
  induction members with
  | nil => simp [depthMembers]
  | cons m members ih =>
    obtain ⟨name, value⟩ := m
    rw [depthMembers, Nat.max_le, ih, List.forall_mem_cons]

/-- An object that takes a strict reader: its values are sound, and none nests as deep as is
allowed. -/
theorem isStrict_obj {members : List (String × Json)}
    (h : ∀ m ∈ members, m.2.isSound = true ∧ m.2.depth < maxDepth) :
    (Json.obj members).isStrict = true := by
  have hsound := (areSoundMembers_iff members).mpr fun m hm => (h m hm).1
  have hdepth := (depthMembers_le_iff members (maxDepth - 1)).mpr fun m hm =>
    Nat.le_sub_one_of_lt (h m hm).2
  have hmax : maxDepth - 1 + 1 = maxDepth := rfl
  rw [isStrict, Bool.and_eq_true, decide_eq_true_eq, isSound, depth]
  exact ⟨hsound, by omega⟩

/-- A number of 32 bits is sound. -/
theorem isSound_uint32 (n : UInt32) : (uint32 n).isSound = true := by
  have hlt : n.toNat < 10 ^ 10 := Nat.lt_trans n.toNat_lt (by decide)
  have hlength : (Nat.toDigits 10 n.toNat).length ≤ 10 :=
    Text.length_decimalDigits_le (by decide) hlt
  show (!overflows (n.toNat : Int).natAbs 0) = true
  rw [Int.natAbs_natCast, Bool.not_eq_true', overflows]
  split
  · rfl
  · rw [if_neg (by omega), if_pos (by omega)]

end Json

end LintDebt
