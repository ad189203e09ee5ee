import DevMachines.Text.Utf8
import Mathlib.Data.List.Basic

/-!
# Reading what has been written

A text of ASCII characters is written as one octet for each, and these octets are read as the same
text.  So are its lines, unless it has carriage returns, which are read as line feeds.

Main statements: `decode_encode`, `unifyLineEnds_eq`.
-/

namespace DevMachines.Text

/-! ## The octets of a text -/

/-- The octets of an array are listed from a position on. -/
theorem toList_loop (bytes : ByteArray) (i : Nat) (before : List UInt8) :
    ByteArray.toList.loop bytes i before = before.reverse ++ bytes.data.toList.drop i := by
  by_cases hi : i < bytes.size
  · have hlength : i < bytes.data.toList.length := hi
    have hget : bytes.get! i = bytes.data.toList[i] := by
      cases bytes with
      | mk data =>
        show data[i]! = data[i]
        exact getElem!_pos data i hi
    rw [ByteArray.toList.loop, if_pos hi, toList_loop bytes (i + 1), List.reverse_cons,
      List.append_assoc, List.singleton_append, List.drop_eq_getElem_cons hlength, hget]
  · have hlength : bytes.data.toList.length ≤ i := Nat.le_of_not_lt hi
    rw [ByteArray.toList.loop, if_neg hi, List.drop_eq_nil_of_le hlength, List.append_nil]
termination_by bytes.size - i

/-- The octets of a text are those of its characters. -/
theorem encode_eq (text : String) : encode text = text.toList.flatMap String.utf8EncodeChar := by
  rw [encode, ByteArray.toList, toList_loop, List.reverse_nil, List.nil_append, List.drop_zero]
  show text.toByteArray.data.toList = _
  rw [← String.utf8Encode_toList, List.utf8Encode, List.toList_data_toByteArray]

/-- An ASCII character is one octet. -/
theorem utf8EncodeChar_ascii {c : Char} (h : c.toNat < 0x80) :
    String.utf8EncodeChar c = [c.toUInt8] := by
  refine String.utf8EncodeChar_eq_singleton ?_
  rw [Char.utf8Size_eq_one_iff, UInt32.le_iff_toNat_le]
  exact Nat.le_of_lt_succ h

theorem toNat_toUInt8_ascii {c : Char} (h : c.toNat < 0x80) : c.toUInt8.toNat = c.toNat := by
  rw [Char.toUInt8, UInt32.toNat_toUInt8, Char.toNat_val, Nat.mod_eq_of_lt (by omega)]

/-! ## Reading them -/

/-- **A text of ASCII characters is read as it has been written.** -/
theorem decode_encode {text : String} (h : ∀ c ∈ text.toList, c.toNat < 0x80) :
    decode (encode text) = .ok text.toList := by
  have hgo : ∀ (cs : List Char) (position fuel : Nat), (∀ c ∈ cs, c.toNat < 0x80) →
      cs.length ≤ fuel → decodeFrom position fuel (cs.map Char.toUInt8) = .ok cs := by
    intro cs
    induction cs with
    | nil => intro position fuel _ _; cases fuel <;> rfl
    | cons c cs ih =>
      intro position fuel hcs hfuel
      rw [List.forall_mem_cons] at hcs
      obtain ⟨fuel, rfl⟩ := Nat.exists_eq_add_one_of_ne_zero
        (Nat.ne_of_gt (Nat.lt_of_lt_of_le (Nat.succ_pos _) hfuel))
      have hoctet := toNat_toUInt8_ascii hcs.1
      have hrest := ih (position + 1) fuel hcs.2 (Nat.le_of_succ_le_succ hfuel)
      rw [List.map_cons, decodeFrom, hoctet, if_pos hcs.1, hrest, Char.ofNat_toNat]
      rfl
  have hoctets : encode text = text.toList.map Char.toUInt8 := by
    rw [encode_eq, List.map_eq_flatMap]
    exact List.flatMap_congr fun c hc => utf8EncodeChar_ascii (h c hc)
  rw [decode, hoctets, List.length_map]
  exact hgo _ 0 _ h (Nat.le_refl _)

/-- Lines without carriage returns stay as they are. -/
theorem unifyLineEnds_eq {cs : List Char} (h : '\r' ∉ cs) : unifyLineEnds cs = cs := by
  induction cs with
  | nil => rfl
  | cons c cs ih =>
    rw [List.mem_cons, not_or] at h
    have hc : c ≠ '\r' := fun heq => h.1 heq.symm
    rw [unifyLineEnds.eq_3 c cs (fun rest heq _ => hc heq) hc, ih h.2]

end DevMachines.Text
