/-!
# The bytes of texts

* `LintDebt.Text.toList_eq_data`: the bytes of an array in a list.
* `LintDebt.Text.toList_toUTF8_append`: the bytes of two texts follow each other.
* `LintDebt.Text.toList_toUTF8_inj`: a text is known by its bytes.
-/

namespace LintDebt.Text

/-- The bytes that are listed from a place on come behind those that are listed already. -/
theorem toList_loop (bytes : ByteArray) (i : Nat) (listed : List UInt8) :
    ByteArray.toList.loop bytes i listed = listed.reverse ++ bytes.data.toList.drop i := by
  fun_induction ByteArray.toList.loop bytes i listed with
  | case1 i listed hlt ih =>
    have hi : i < bytes.data.toList.length := hlt
    have hget : bytes.get! i = bytes.data.toList[i] := getElem!_pos bytes.data i hlt
    rw [ih, List.drop_eq_getElem_cons hi, hget, List.reverse_cons, List.append_assoc,
      List.singleton_append]
  | case2 i listed hge =>
    have hi : bytes.data.toList.length ≤ i := Nat.le_of_not_lt hge
    rw [List.drop_eq_nil_of_le hi, List.append_nil]

/-- The bytes of an array in a list are its data. -/
theorem toList_eq_data (bytes : ByteArray) : bytes.toList = bytes.data.toList := by
  rw [ByteArray.toList, toList_loop]
  rfl

/-- The bytes of two texts follow each other. -/
theorem toList_toUTF8_append (s t : String) :
    (s ++ t).toUTF8.toList = s.toUTF8.toList ++ t.toUTF8.toList := by
  rw [toList_eq_data, toList_eq_data, toList_eq_data]
  exact (congrArg (·.data.toList) String.toByteArray_append).trans ByteArray.toList_data_append

/-- A text is known by its bytes. -/
theorem toList_toUTF8_inj {s t : String} : s.toUTF8.toList = t.toUTF8.toList ↔ s = t := by
  constructor
  · intro h
    rw [toList_eq_data, toList_eq_data, Array.toList_inj] at h
    exact String.toByteArray_inj.mp (ByteArray.ext h)
  · exact fun h => h ▸ rfl

end LintDebt.Text
