import DevMachines.Proofs.Text.Base64
import DevMachines.Proofs.Yaml.Doubles
import DevMachines.Proofs.Yaml.Numbers

/-!
# Scalars that come back

The tag of a scalar and the text it is written as give it back.  Every scalar that can be read is one
that comes back, but for integers that are too long to be written: what is read is a double that there
is, a day that the calendar has, a moment of which the fraction has six digits and the offset no
seconds.

Main statements: `always_scalarValue_comesBack` and `ComesBack.takesColumn`.
-/

namespace DevMachines.Yaml

/-! ## Texts, truth values and octets -/

theorem comesBack_text (s : String) : ComesBack (.text s) :=
  ⟨Tag.text, s, false, rfl, fun _ => rfl⟩

theorem boolValue_eq (b : Bool) : boolValue (if b then "true" else "false") = .ok b := by
  cases b <;> decide +kernel

theorem comesBack_bool (b : Bool) : ComesBack (.bool b) := by
  refine ⟨Tag.bool, _, false, rfl, fun _ => ?_⟩
  rw [scalarValue, if_neg (by decide), if_neg (by decide), if_pos rfl, boolValue_eq]
  rfl

/-- The lines of octets are ASCII. -/
theorem toNat_lt_of_mem_lines {octets : Text.Octets} {c : Char}
    (h : c ∈ Text.Base64.lines octets) : c.toNat < 0x80 := by
  obtain ⟨rows, hrows, hlines⟩ := Text.Base64.exists_rows octets
  rw [hlines, List.mem_flatMap] at h
  obtain ⟨row, hrow, hc⟩ := h
  rcases List.mem_append.mp hc with hc | hc
  · have hletter := (hrows.isLetter row hrow c hc).2
    exact Nat.lt_of_le_of_lt (UInt32.le_iff_toNat_le.mp hletter) (by decide)
  · rw [List.mem_singleton.mp hc]
    decide

/-- **Octets come back.** -/
theorem comesBack_octets (octets : Text.Octets) : ComesBack (.octets octets) := by
  refine ⟨Tag.binary, _, true, rfl, fun _ => ?_⟩
  have hascii : (Text.Base64.lines octets).all (·.toNat < 0x80) = true :=
    List.all_eq_true.mpr fun c hc => decide_eq_true (toNat_lt_of_mem_lines hc)
  rw [scalarValue, if_neg (by decide), if_neg (by decide), if_neg (by decide), if_neg (by decide),
    if_neg (by decide), if_neg (by decide), if_pos rfl, octetsValue, String.toList_ofList, hascii,
    if_pos rfl, Text.Base64.decode_lines]
  rfl

/-! ## Days and moments that are read -/

theorem appendDigits?_lt {base n m : Nat} {cs : List Char} (h : appendDigits? base n cs = some m) :
    m < (n + 1) * base ^ cs.length := by
  induction cs generalizing n with
  | nil =>
    obtain rfl := Option.some.inj h
    simp
  | cons c cs ih =>
    cases hc : hexValue? c with
    | none =>
      rw [appendDigits?, List.foldl_cons, hc] at h
      exact absurd (h.symm.trans (foldl_none (fun _ => rfl) cs)) (Option.some_ne_none m)
    | some d =>
      by_cases hd : d < base
      · rw [appendDigits?_cons hc hd] at h
        calc m < (n * base + d + 1) * base ^ cs.length := ih h
          _ ≤ ((n + 1) * base) * base ^ cs.length := by
              refine Nat.mul_le_mul_right _ ?_
              rw [Nat.succ_mul]
              omega
          _ = (n + 1) * base ^ (c :: cs).length := by
              rw [List.length_cons, Nat.pow_succ', Nat.mul_assoc]
      · have hstop : appendDigits? base n (c :: cs) = none := by
          simp only [appendDigits?, List.foldl_cons, Option.bind_eq_bind, Option.bind_some, hc, hd,
            ↓reduceIte]
          exact foldl_none (fun _ => rfl) cs
        exact absurd (h.symm.trans hstop) (Option.some_ne_none m)

/-- A fraction has at most six digits. -/
theorem microseconds_lt (digits : List Char) : microseconds digits < 1000000 := by
  obtain ⟨six, hsix⟩ : ∃ six, six = digits.take 6 ++ List.replicate (6 - digits.length) '0' := ⟨_, rfl⟩
  have hlength : six.length = 6 := by
    rw [hsix, List.length_append, List.length_take, List.length_replicate]
    omega
  rw [microseconds, ← hsix]
  cases hread : readDigits? 10 six with
  | none => decide
  | some n =>
    have hsome : six ≠ [] := fun hnil => by rw [hnil] at hlength; cases hlength
    rw [readDigits?_of_ne_nil hsome] at hread
    have hless := appendDigits?_lt hread
    rw [hlength] at hless
    exact hless

/-- What follows a part that is there decides. -/
theorem forall_eq_some_of_bind {α β : Type} {P : β → Prop} {x : Option α} {f : α → Option β}
    (h : ∀ a, ∀ b, f a = some b → P b) : ∀ b, x.bind f = some b → P b := by
  intro b hb
  obtain ⟨a, -, ha⟩ := Option.bind_eq_some_iff.mp hb
  exact h a b ha

/-- Is an offset, if there is one, one of whole minutes? -/
def HasWholeMinutes (offset : Option Int) : Prop := ∀ s, offset = some s → s % 60 = 0

/-- An offset that is read is one of whole minutes. -/
theorem hasWholeMinutes_of_offsetPart (cs : List Char) :
    ∀ offset, offsetPart cs = some offset → HasWholeMinutes offset := by
  have hsigned : ∀ (sign : Char) (hours minutes : Nat), HasWholeMinutes (some
      (if sign == '-' then -((hours : Int) * 3600 + minutes * 60) else hours * 3600 + minutes * 60)) := by
    intro sign hours minutes s hs
    rw [← Option.some.inj hs]
    split <;> omega
  intro offset h
  unfold offsetPart at h
  split at h
  · cases h
    nofun
  split at h
  · cases h
    rintro s ⟨⟩
    rfl
  · split at h
    · revert offset
      refine forall_eq_some_of_bind fun hours => ?_
      dsimp only
      split
      · exact forall_eq_some_of_bind fun minutes offset h => Option.some.inj h ▸ hsigned _ _ _
      · split
        · exact forall_eq_some_of_bind fun minutes offset h => Option.some.inj h ▸ hsigned _ _ _
        · exact forall_eq_some_of_bind fun minutes offset h => Option.some.inj h ▸ hsigned _ _ _
      · exact forall_eq_some_of_bind fun minutes offset h => Option.some.inj h ▸ hsigned _ _ _
    · cases h
  · cases h

theorem hasWholeMinutes_of_timePart (cs : List Char) :
    ∀ t, timePart cs = some t → HasWholeMinutes t.2 := by
  have hlast : ∀ (hour minute second : Nat) (fraction rest : List Char) (t : (Nat × Nat × Nat × List Char) × Option Int),
      ((offsetPart rest).bind fun offset => some ((hour, minute, second, fraction), offset)) = some t →
        HasWholeMinutes t.2 := by
    intro hour minute second fraction rest t ht
    obtain ⟨offset, hoffset, hsome⟩ := Option.bind_eq_some_iff.mp ht
    rw [← Option.some.inj hsome]
    exact hasWholeMinutes_of_offsetPart rest offset hoffset
  unfold timePart
  simp only [Option.bind_eq_bind, Option.pure_def]
  repeat' first
    | exact hlast _ _ _ _ _
    | refine forall_eq_some_of_bind fun _ => ?_
    | split

theorem hasWholeMinutes_of_timestampParts? {cs : List Char} {parts : TimestampParts}
    (h : timestampParts? cs = some parts) : HasWholeMinutes parts.offset := by
  revert parts
  have hend : ∀ (year month day : Nat) (full : Bool) (rest : List Char) (parts : TimestampParts),
      (if rest.isEmpty then some ⟨year, month, day, none, none, full⟩
        else (timePart rest).bind fun t =>
          some (⟨year, month, day, some t.1, t.2, full⟩ : TimestampParts)) = some parts →
        HasWholeMinutes parts.offset := by
    intro year month day full rest parts h
    split at h
    · rw [← Option.some.inj h]
      nofun
    · obtain ⟨t, ht, hparts⟩ := Option.bind_eq_some_iff.mp h
      rw [← Option.some.inj hparts]
      exact hasWholeMinutes_of_timePart rest t ht
  unfold timestampParts?
  simp only [Option.bind_eq_bind, Option.pure_def]
  repeat' first
    | exact hend _ _ _ _ _
    | refine forall_eq_some_of_bind fun _ => ?_
    | split

/-- A day or a moment that is read comes back. -/
theorem always_timestampValue_comesBack (label : Label) (text : String) :
    Always ComesBack (timestampValue label text) := by
  unfold timestampValue
  split
  · exact always_error
  · next parts hparts =>
    dsimp only
    split
    · split
      · next d hd =>
        have hsame := always_check_date _ d hd
        exact always_ok (comesBack_date (hsame ▸ hd) _)
      · exact always_error
    · split
      · next m hm =>
        have hsame := always_check_moment _ m hm
        refine always_ok (comesBack_moment (hsame ▸ hm) ?_ ?_ _)
        · rw [hsame]
          exact microseconds_lt _
        · rw [hsame]
          exact hasWholeMinutes_of_timestampParts? hparts
      · exact always_error

/-! ## Every scalar that is read -/

/-- Is a value no integer that is too long to be written? -/
def IsShort (v : Value) : Prop := ∀ n, v = .int n → isTooLong n = false

/-- **Every scalar that is read comes back**, if it is not too long to be written. -/
theorem always_scalarValue_comesBack (label : Label) (tag text : String) :
    Always (fun v => IsShort v → ComesBack v) (scalarValue label tag text) := by
  unfold scalarValue
  split
  · exact always_ok fun _ => comesBack_text text
  split
  · exact always_ok fun _ => comesBack_null
  split
  · exact always_map fun b _ => comesBack_bool b
  split
  · refine always_map fun n hshort => comesBack_int ?_
    have hlength := hshort n rfl
    rw [isTooLong, decide_eq_false_iff_not] at hlength
    omega
  split
  · exact (always_floatValue text).map fun x hx _ => comesBack_float hx
  split
  · exact fun v hv _ => always_timestampValue_comesBack label text v hv
  split
  · unfold octetsValue
    split
    · split
      · exact always_ok fun _ => comesBack_octets _
      · exact always_error
    · exact always_error
  · exact always_error

/-! ## What they are written as -/

theorem takesColumn_of_mem_intText {n : Int} {c : Char} (h : c ∈ (intText n).toList) :
    TakesColumn c := by
  have hdigits : c ∈ Nat.toDigits 10 n.natAbs → TakesColumn c := fun h =>
    takesColumn_of_isDigit (Nat.isDigit_of_mem_toDigits (by decide) (by decide) h)
  rw [intText] at h
  split at h <;> rw [String.toList_ofList] at h
  · rcases List.mem_cons.mp h with rfl | h
    · decide
    · exact hdigits h
  · exact hdigits h

theorem takesColumn_of_mem_floatForm {x : Binary64} (hx : x.IsDouble) {c : Char}
    (h : c ∈ (scalarForm.floatForm x).toList) : TakesColumn c := by
  cases x with
  | nan =>
    have hall : ∀ c ∈ ".nan".toList, TakesColumn c := List.all_iff_forall_prop.mp (by decide)
    exact hall c h
  | infinite negative =>
    have hall : ∀ negative : Bool, ∀ c ∈ (if negative then "-.inf" else ".inf").toList, TakesColumn c :=
      fun negative => by cases negative <;> exact List.all_iff_forall_prop.mp (by decide)
    exact hall negative c h
  | finite negative units =>
    have hall : ∀ c ∈ Json.numeralChars, TakesColumn c := List.all_iff_forall_prop.mp (by decide)
    obtain ⟨p, hform, hp⟩ := exists_floatForm (hx negative units rfl) negative
    rw [hform, String.toList_ofList] at h
    exact hall c (hp.mem_numeralChars_signed h)

/-- **A scalar that comes back, and is no text, is written in visible characters.** -/
theorem ComesBack.takesColumn {v : Value} {tag text : String} (h : ComesBack v)
    (hform : scalarForm v = some (tag, text, false)) (htag : tag ≠ Tag.text) :
    ∀ c ∈ text.toList, TakesColumn c := by
  cases v with
  | null =>
    cases hform
    exact List.all_iff_forall_prop.mp (by decide)
  | bool b =>
    cases hform
    cases b <;> exact List.all_iff_forall_prop.mp (by decide)
  | int n =>
    cases hform
    exact fun c => takesColumn_of_mem_intText
  | float x =>
    -- what it comes back from is the text of a double
    cases hform
    obtain ⟨_, _, _, hform, hback⟩ := h
    cases hform
    have hvalue := hback ⟨0, 0⟩
    rw [scalarValue, if_neg (by decide), if_neg (by decide), if_neg (by decide), if_neg (by decide),
      if_pos rfl, map_eq_ok_iff] at hvalue
    obtain ⟨y, hy, hsame⟩ := hvalue
    obtain rfl : x = y := Value.float.inj hsame
    exact fun c => takesColumn_of_mem_floatForm (always_floatValue _ x hy)
  | text s =>
    cases hform
    exact absurd rfl htag
  | date label d =>
    cases hform
    exact fun c => takesColumn_of_mem_isoText
  | moment label m =>
    cases hform
    exact fun c => takesColumn_of_mem_moment
  | octets | list | pair | set | map | again => cases hform

/-! ## Values that can be read back -/

/-- A scalar that is read, or no scalar. -/
def IsReadScalar (v : Value) : Prop := v.IsScalar → IsShort v → ComesBack v

theorem isKept_isReadScalar : IsKept (Value.Everywhere IsReadScalar) where
  scalar label tag text := fun v hv => by
    have hscalar := always_scalarValue_isScalar label tag text v hv
    exact (Value.everywhere_scalar_iff hscalar).mpr fun _ =>
      always_scalarValue_comesBack label tag text v hv
  again _ := Value.everywhere_again_iff.mpr nofun
  list _ _ h := Value.everywhere_list_iff.mpr ⟨nofun, h⟩
  pair _ _ _ ha hb := Value.everywhere_pair_iff.mpr ⟨nofun, ha, hb⟩
  set _ _ _ h := Value.everywhere_set_iff.mpr ⟨nofun, h⟩
  map _ _ _ h := Value.everywhere_map_iff.mpr ⟨nofun, h⟩

/-- A value without integers that are too long has none in its parts. -/
theorem everywhere_isShort {v : Value} (h : v.holdsLongInt = false) : v.Everywhere IsShort := by
  induction v using Value.byParts with
  | scalar v hv =>
    rw [Value.everywhere_scalar_iff hv]
    rintro n rfl
    exact h
  | again => exact Value.everywhere_again_iff.mpr nofun
  | list label items ih =>
    have hlong : (Value.list label items).holdsLongInt = items.any Value.holdsLongInt :=
      Value.anyHoldsLongInt_eq items
    rw [hlong, List.any_eq_false] at h
    exact Value.everywhere_list_iff.mpr ⟨nofun, fun v hv => ih v hv (by simpa using h v hv)⟩
  | pair label a b iha ihb =>
    have hlong : (Value.pair label a b).holdsLongInt = (a.holdsLongInt || b.holdsLongInt) := rfl
    rw [hlong, Bool.or_eq_false_iff] at h
    exact Value.everywhere_pair_iff.mpr ⟨nofun, iha h.1, ihb h.2⟩
  | set label elements ih =>
    have hlong : (Value.set label elements).holdsLongInt = elements.any Value.holdsLongInt :=
      Value.anyHoldsLongInt_eq elements
    rw [hlong, List.any_eq_false] at h
    exact Value.everywhere_set_iff.mpr ⟨nofun, fun v hv => ih v hv (by simpa using h v hv)⟩
  | map label entries ih =>
    have hlong : (Value.map label entries).holdsLongInt =
        entries.any fun e => e.1.holdsLongInt || e.2.holdsLongInt := Value.entriesHoldLongInt_eq entries
    rw [hlong, List.any_eq_false] at h
    refine Value.everywhere_map_iff.mpr ⟨nofun, fun e he => ?_⟩
    have hshort := h e he
    rw [Bool.not_eq_true, Bool.or_eq_false_iff] at hshort
    exact ⟨(ih e he).1 hshort.1, (ih e he).2 hshort.2⟩

/-- Is a value no pair? -/
def IsNoPair (v : Value) : Prop := ∀ label a b, v ≠ .pair label a b

/-- Keys that are no pairs are scalars. -/
theorem hasKeys_of_areKeys {keys : List Value} (h : Value.AreKeys keys) (hpairs : ∀ k ∈ keys, IsNoPair k) :
    HasKeys keys := by
  refine ⟨fun k hk => ?_, h.differ⟩
  have hkey := h.isKey k hk
  cases k with
  | pair label a b => exact absurd rfl (hpairs _ hk label a b)
  | list | set | map | again => exact absurd hkey Bool.false_ne_true
  | _ => trivial

/-- **What has been read can be read back**, if it has no pairs and nothing that is too long. -/
theorem isRestorable_of_read {v : Value} (hread : v.Everywhere IsReadScalar) (hmade : v.IsWellMade)
    (hpairs : v.Everywhere IsNoPair) (hshort : v.holdsLongInt = false) : IsRestorable v := by
  intro part hpart
  cases part with
  | list | again => trivial
  | pair label a b => exact absurd rfl (hpairs _ hpart label a b)
  | set label elements =>
    exact hasKeys_of_areKeys (hmade _ hpart) fun k hk =>
      hpairs k (.trans (.element hk .self) hpart)
  | map label entries =>
    refine hasKeys_of_areKeys (hmade _ hpart) (List.forall_mem_map.mpr fun e he => ?_)
    exact hpairs e.1 (.trans (.key he .self) hpart)
  | _ => exact hread _ hpart trivial (everywhere_isShort hshort _ hpart)

end DevMachines.Yaml
