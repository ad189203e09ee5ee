import DevMachines.Proofs.Json.Doubles
import DevMachines.Proofs.Yaml.Building

/-!
# Numbers, days and moments that come back

An integer is read from its digits.  A day of the calendar is read from its year, month and day, and a
moment from its day, its time of day, the six digits of its fraction and its offset, which is written in
hours and minutes.

Every double that is one comes back: its text is the shortest decimal that reads as it, and a point is
put in front of an exponent that has none, which leaves the decimal.

Main statements: `comesBack_int`, `comesBack_date`, `comesBack_moment`, `comesBack_float`.

## What does not come back

An integer of more than 4300 digits is refused where it is read.  An offset that is not one of whole
minutes is written with its seconds, and no offset is read with seconds; none that has been read has
any.
-/

namespace DevMachines.Yaml

/-! ## Integers -/

theorem bounds_of_mem_toDigits {n : Nat} {c : Char} (h : c ∈ Nat.toDigits 10 n) :
    48 ≤ c.toNat ∧ c.toNat ≤ 57 := by
  have hdigit := Nat.isDigit_of_mem_toDigits (by decide) (by decide) h
  simp only [Char.isDigit, Bool.and_eq_true, decide_eq_true_eq] at hdigit
  exact ⟨UInt32.le_iff_toNat_le.mp hdigit.1, UInt32.le_iff_toNat_le.mp hdigit.2⟩

theorem ne_of_mem_toDigits {n : Nat} {c d : Char} (h : c ∈ Nat.toDigits 10 n)
    (hd : d.toNat < 48 ∨ 57 < d.toNat) : c ≠ d := by
  have hbounds := bounds_of_mem_toDigits h
  rintro rfl
  omega

/-- Characters that are no blanks have none around them. -/
theorem trim_eq {cs : List Char} (h : ∀ c ∈ cs, Text.isBlank c = false) : Text.trim cs = cs := by
  have hdrop : ∀ {cs : List Char}, (∀ c ∈ cs, Text.isBlank c = false) →
      cs.dropWhile Text.isBlank = cs := by
    intro cs hcs
    cases cs with
    | nil => rfl
    | cons c cs => rw [List.dropWhile_cons_of_neg (by simp [hcs c (List.mem_cons_self ..)])]
  rw [Text.trim, Text.trimStart, hdrop h, Text.trimEnd, hdrop, List.reverse_reverse]
  exact fun c hc => h c (List.mem_reverse.mp hc)

theorem trim_toDigits (n : Nat) : Text.trim (Nat.toDigits 10 n) = Nat.toDigits 10 n := by
  refine trim_eq fun c hc => ?_
  have hbounds := bounds_of_mem_toDigits hc
  simp only [Text.isBlank, Bool.or_eq_false_iff, Bool.and_eq_false_iff, decide_eq_false_iff_not,
    beq_eq_false_iff_ne]
  omega

theorem map_asciiDigit_toDigits (n : Nat) :
    (Nat.toDigits 10 n).map Text.asciiDigit = Nat.toDigits 10 n := by
  have hsame : ∀ c ∈ Nat.toDigits 10 n, Text.asciiDigit c = c := by
    intro c hc
    have hbounds := bounds_of_mem_toDigits hc
    rw [Text.asciiDigit, if_pos (by omega)]
  exact (List.map_congr_left hsame).trans (List.map_id _)

theorem takeSign_toDigits (n : Nat) :
    Binary64.takeSign (Nat.toDigits 10 n) = (false, Nat.toDigits 10 n) := by
  cases hdigits : Nat.toDigits 10 n with
  | nil => rfl
  | cons c cs =>
    have hc : c ∈ Nat.toDigits 10 n := hdigits ▸ List.mem_cons_self ..
    have hminus : c ≠ '-' := ne_of_mem_toDigits hc (by decide)
    have hplus : c ≠ '+' := ne_of_mem_toDigits hc (by decide)
    rw [Binary64.takeSign]
    · exact fun rest h => hminus (List.cons.inj h).1
    · exact fun rest h => hplus (List.cons.inj h).1

theorem dropBaseMark_ten (cs : List Char) : dropBaseMark 10 cs = cs := by
  unfold dropBaseMark
  split
  · simp
  · rfl

theorem readInt_toDigits {n : Nat} (h : (Nat.toDigits 10 n).length ≤ digitLimit) :
    readInt 10 (Nat.toDigits 10 n) = .ok n := by
  have hread := readDigits?_toDigits (by decide : 1 < 10) (by decide) 0 n
  rw [List.replicate_zero, List.nil_append] at hread
  rw [readInt, trim_toDigits, map_asciiDigit_toDigits, takeSign_toDigits]
  dsimp only
  rw [dropBaseMark_ten, hread]
  dsimp only
  rw [if_neg (by omega), if_neg Bool.false_ne_true]

/-- The digits of a number, perhaps behind a sign, are that number. -/
theorem intValue_ofList {n : Nat} (h : (Nat.toDigits 10 n).length ≤ digitLimit) {negative : Bool}
    {cs : List Char} (hsign : Binary64.takeSign cs = (negative, Nat.toDigits 10 n))
    (hcs : ∀ c ∈ cs, c ≠ '_') (hsome : cs ≠ []) :
    intValue (String.ofList cs) = .ok (if negative then -(n : Int) else n) := by
  have hfilter : cs.filter (· != '_') = cs :=
    List.filter_eq_self.mpr fun c hc => bne_iff_ne.mpr (hcs c hc)
  have hempty : cs.isEmpty = false := by simpa using hsome
  rw [intValue, String.toList_ofList, hfilter, hempty]
  simp only [Bool.false_eq_true, ↓reduceIte, pure_bind, hsign]
  rcases Nat.eq_zero_or_pos n with rfl | hpos
  · cases negative <;> rfl
  · have hhead := Json.head?_toDigits_ne_zero hpos
    have hcolon : (Nat.toDigits 10 n).contains ':' = false := by
      rw [← Bool.not_eq_true, List.contains_iff_mem]
      exact fun hmem => ne_of_mem_toDigits hmem (by decide) rfl
    have hread := readInt_toDigits h
    cases hdigits : Nat.toDigits 10 n with
    | nil => exact absurd hdigits Nat.toDigits_ne_nil
    | cons c rest =>
      rw [hdigits] at hhead hcolon hread
      have hc : c ≠ '0' := fun hzero => hhead (by rw [hzero]; rfl)
      simp only [hcolon, hread]
      split
      · next heq => cases heq
      · next heq => exact absurd (List.cons.inj heq).1 hc
      · next heq => exact absurd (List.cons.inj heq).1 hc
      · next heq => exact absurd (List.cons.inj heq).1 hc
      · next heq => exact absurd (List.cons.inj heq).1 hc
      · rfl

/-- **An integer is read from its text**, unless it is longer than any that is read. -/
theorem intValue_intText {n : Int} (h : (Nat.toDigits 10 n.natAbs).length ≤ digitLimit) :
    intValue (intText n) = .ok n := by
  have hdigits : ∀ c ∈ Nat.toDigits 10 n.natAbs, c ≠ '_' := fun c hc =>
    ne_of_mem_toDigits hc (by decide)
  rw [intText]
  split
  · next hnegative =>
    have hsign : Binary64.takeSign ('-' :: Nat.toDigits 10 n.natAbs) =
        (true, Nat.toDigits 10 n.natAbs) := rfl
    rw [intValue_ofList h hsign (List.forall_mem_cons.mpr ⟨by decide, hdigits⟩)
      (List.cons_ne_nil _ _), if_pos rfl]
    congr 1
    omega
  · next hnonnegative =>
    rw [intValue_ofList h (takeSign_toDigits _) hdigits Nat.toDigits_ne_nil,
      if_neg Bool.false_ne_true]
    congr 1
    omega

/-- **An integer comes back**, unless it is longer than any that is read. -/
theorem comesBack_int {n : Int} (h : (Nat.toDigits 10 n.natAbs).length ≤ digitLimit) :
    ComesBack (.int n) := by
  refine ⟨Tag.int, intText n, false, rfl, fun _ => ?_⟩
  rw [scalarValue, if_neg (by decide), if_neg (by decide), if_neg (by decide), if_pos rfl,
    intValue_intText h]
  rfl

/-! ## Days -/

/-- A place more is a digit more. -/
theorem padLeft_toDigits_succ {width : Nat} (hwidth : 0 < width) (n : Nat) :
    padLeft (width + 1) '0' (Nat.toDigits 10 n) =
      padLeft width '0' (Nat.toDigits 10 (n / 10)) ++ [(n % 10).digitChar] := by
  rcases Nat.lt_or_ge n 10 with hn | hn
  · rw [Nat.toDigits_of_lt_base hn, Nat.div_eq_of_lt hn, Nat.mod_eq_of_lt hn,
      Nat.toDigits_of_lt_base (by decide)]
    obtain ⟨width, rfl⟩ := Nat.exists_eq_add_one_of_ne_zero (Nat.ne_of_gt hwidth)
    simp only [padLeft, List.length_singleton, Nat.add_sub_cancel]
    rw [List.replicate_succ']
    rfl
  · have hquotient : (Nat.toDigits 10 n).length = (Nat.toDigits 10 (n / 10)).length + 1 := by
      rw [Nat.toDigits_of_base_le (by decide) hn, List.length_append, List.length_singleton]
    rw [padLeft, padLeft, hquotient, Nat.add_sub_add_right, Nat.toDigits_of_base_le (by decide) hn,
      List.append_assoc]

/-- A number below a hundred in two places. -/
theorem toList_zeroPadded_two {n : Nat} (hn : n < 100) :
    (zeroPadded 2 n).toList = [(n / 10).digitChar, (n % 10).digitChar] := by
  have hten : n / 10 < 10 := by omega
  rw [zeroPadded, String.toList_ofList, padLeft_toDigits_succ (by decide),
    Nat.toDigits_of_lt_base hten]
  rfl

/-- A number below ten thousand in four places. -/
theorem toList_zeroPadded_four {n : Nat} (hn : n < 10000) :
    (zeroPadded 4 n).toList = [(n / 10 / 10 / 10).digitChar, (n / 10 / 10 % 10).digitChar,
      (n / 10 % 10).digitChar, (n % 10).digitChar] := by
  have hten : n / 10 / 10 / 10 < 10 := by omega
  rw [zeroPadded, String.toList_ofList, padLeft_toDigits_succ (by decide),
    padLeft_toDigits_succ (by decide), padLeft_toDigits_succ (by decide),
    Nat.toDigits_of_lt_base hten]
  rfl

theorem digitValue?_digitChar {d : Nat} (h : d < 10) : digitValue? d.digitChar = some d := by
  decide +revert

theorem twoDigits_digitChar {a b : Nat} (ha : a < 10) (hb : b < 10) (rest : List Char) :
    twoDigits (a.digitChar :: b.digitChar :: rest) = some (10 * a + b, rest) := by
  rw [twoDigits, digitValue?_digitChar ha, digitValue?_digitChar hb]
  rfl

theorem oneOrTwoDigits_digitChar {a b : Nat} (ha : a < 10) (hb : b < 10) (rest : List Char) :
    oneOrTwoDigits (a.digitChar :: b.digitChar :: rest) = some (10 * a + b, rest) := by
  rw [oneOrTwoDigits, digitValue?_digitChar ha, digitValue?_digitChar hb]
  rfl

/-- A check of a day gives the day. -/
theorem always_check_date (d : Date) : Always (· = d) d.check := by
  rw [Date.check]
  split
  · exact always_error
  split
  · exact always_error
  split
  · exact always_error
  · exact always_ok rfl

/-- The bounds of a day that the calendar has. -/
theorem bounds_of_check {d : Date} (h : d.check = .ok d) :
    d.year < 10000 ∧ d.month < 100 ∧ d.day < 100 := by
  have hdays : daysInMonth d.year d.month ≤ 31 := by
    unfold daysInMonth
    split
    · split <;> decide
    · split <;> decide
  rw [Date.check] at h
  split at h
  · cases h
  split at h
  · cases h
  split at h
  · cases h
  omega

/-- The characters of a day. -/
theorem toList_isoText (d : Date) : d.isoText.toList =
    (zeroPadded 4 d.year).toList ++ '-' :: ((zeroPadded 2 d.month).toList ++
      '-' :: (zeroPadded 2 d.day).toList) := by
  simp [Date.isoText, toString]

/-- A day is read from its text, whatever time is behind it. -/
theorem timestampParts?_isoText {d : Date} (h : d.check = .ok d) (tail : List Char) :
    timestampParts? (d.isoText.toList ++ tail) =
      if tail.isEmpty then some ⟨d.year, d.month, d.day, none, none, true⟩
      else (timePart tail).map fun t => ⟨d.year, d.month, d.day, some t.1, t.2, true⟩ := by
  obtain ⟨hyear, hmonth, hday⟩ := bounds_of_check h
  have hyear' : 100 * (10 * (d.year / 10 / 10 / 10) + d.year / 10 / 10 % 10) +
      (10 * (d.year / 10 % 10) + d.year % 10) = d.year := by omega
  have hmonth' : 10 * (d.month / 10) + d.month % 10 = d.month := by omega
  have hday' : 10 * (d.day / 10) + d.day % 10 = d.day := by omega
  have hthree : ∀ n, n + 1 + 1 + 1 - n = 3 := by omega
  rw [toList_isoText, toList_zeroPadded_four hyear, toList_zeroPadded_two hmonth,
    toList_zeroPadded_two hday]
  simp only [List.cons_append, List.nil_append]
  rw [timestampParts?, twoDigits_digitChar (by omega) (by omega)]
  simp only [Option.bind_eq_bind, Option.bind_some]
  rw [twoDigits_digitChar (by omega) (by omega)]
  simp only [Option.bind_some]
  rw [oneOrTwoDigits_digitChar (by omega) (by omega)]
  simp only [Option.bind_some]
  rw [oneOrTwoDigits_digitChar (by omega) (by omega)]
  simp only [Option.bind_some, hyear', hmonth', hday', List.length_cons, hthree]
  split
  · rfl
  · cases timePart tail <;> rfl

/-- Digits are visible characters. -/
theorem takesColumn_of_isDigit {c : Char} (h : isDigit c = true) : TakesColumn c := by
  rw [isDigit, Bool.and_eq_true, decide_eq_true_eq, decide_eq_true_eq] at h
  exact ⟨Char.le_trans (by decide) h.1, Char.le_trans h.2 (by decide)⟩

theorem takesColumn_of_mem_zeroPadded {width n : Nat} {c : Char}
    (h : c ∈ (zeroPadded width n).toList) : TakesColumn c :=
  takesColumn_of_isDigit (isDigit_of_mem_zeroPadded h)

theorem takesColumn_of_mem_isoText {d : Date} {c : Char} (h : c ∈ d.isoText.toList) :
    TakesColumn c := by
  simp only [toList_isoText, List.mem_append, List.mem_cons] at h
  rcases h with h | rfl | h | rfl | h
  · exact takesColumn_of_mem_zeroPadded h
  · decide
  · exact takesColumn_of_mem_zeroPadded h
  · decide
  · exact takesColumn_of_mem_zeroPadded h

theorem dropFinalBreak_eq {cs : List Char} (h : ∀ c ∈ cs, TakesColumn c) : dropFinalBreak cs = cs := by
  have hlast : cs.getLast? ≠ some '\n' := fun hlast =>
    ne_newline_of_takesColumn (h _ (List.mem_of_getLast? hlast)) rfl
  rw [dropFinalBreak, if_neg (by simpa using hlast)]

theorem scalarValue_timestamp (label : Label) (text : String) :
    scalarValue label Tag.timestamp text = timestampValue label text := by
  rw [scalarValue, if_neg (by decide), if_neg (by decide), if_neg (by decide), if_neg (by decide),
    if_neg (by decide), if_pos rfl]

/-- **A day of the calendar comes back.** -/
theorem comesBack_date {d : Date} (h : d.check = .ok d) (label : Option Label) :
    ComesBack (.date label d) := by
  refine ⟨Tag.timestamp, d.isoText, false, rfl, fun label' => ?_⟩
  have hparts := timestampParts?_isoText h []
  rw [List.append_nil] at hparts
  rw [scalarValue_timestamp, timestampValue,
    dropFinalBreak_eq fun _ hc => takesColumn_of_mem_isoText hc, hparts]
  simp [h, withLabel]

/-! ## Moments -/

/-- The characters of a time of day. -/
def timeChars (m : Moment) : List Char :=
  (zeroPadded 2 m.hour).toList ++ ':' :: ((zeroPadded 2 m.minute).toList ++
    ':' :: (zeroPadded 2 m.second).toList)

/-- The characters of a fraction, if there is one. -/
def fractionChars (m : Moment) : List Char :=
  if m.microsecond = 0 then [] else '.' :: (zeroPadded 6 m.microsecond).toList

/-- The characters of an offset, if there is one. -/
def offsetChars (m : Moment) : List Char := ((m.offset.map Moment.offsetText).getD "").toList

theorem toList_moment (m : Moment) : (m.isoText " ").toList =
    m.date.isoText.toList ++ ' ' :: (timeChars m ++ (fractionChars m ++ offsetChars m)) := by
  have hfraction : (if m.microsecond = 0 then "" else "." ++ zeroPadded 6 m.microsecond).toList =
      fractionChars m := by
    rw [fractionChars]
    split <;> simp
  simp [Moment.isoText, timeChars, ← hfraction, offsetChars, toString]

/-- A check of a moment gives the moment. -/
theorem always_check_moment (m : Moment) : Always (· = m) m.check := by
  have hclock : Always (· = m) (do
      let _ ← m.date.check
      if 23 < m.hour then throw .hour
      if 59 < m.minute then throw .minute
      if 59 < m.second then throw .second
      pure m : Except CalendarFault Moment) := by
    refine always_bind fun _ => ?_
    dsimp only
    split
    · exact always_error
    split
    · exact always_error
    split
    · exact always_error
    · exact always_ok rfl
  rw [Moment.check]
  split
  · split
    · exact always_error
    · exact hclock
  · exact hclock
/-- What a moment that has been checked satisfies. -/
theorem bounds_of_check_moment {m : Moment} (h : m.check = .ok m) :
    m.date.check = .ok m.date ∧ m.hour < 100 ∧ m.minute < 100 ∧ m.second < 100 ∧
      ∀ s, m.offset = some s → s.natAbs < secondsPerDay := by
  have hoffset : ∀ s, m.offset = some s → s.natAbs < secondsPerDay := by
    intro s hs
    by_contra hlong
    rw [Moment.check, hs] at h
    simp only [if_pos (Nat.le_of_not_lt hlong)] at h
    cases h
  have hrest : (do
      let _ ← m.date.check
      if 23 < m.hour then throw .hour
      if 59 < m.minute then throw .minute
      if 59 < m.second then throw .second
      pure m : Except CalendarFault Moment) = .ok m := by
    rw [Moment.check] at h
    cases hs : m.offset with
    | none => rwa [hs] at h
    | some s =>
      rw [hs] at h
      simpa only [if_neg (Nat.not_le_of_lt (hoffset s hs))] using h
  cases hdate : m.date.check with
  | error fault =>
    rw [hdate] at hrest
    cases hrest
  | ok d =>
    rw [hdate] at hrest
    dsimp only [bind, Except.bind] at hrest
    split at hrest
    · cases hrest
    split at hrest
    · cases hrest
    split at hrest
    · cases hrest
    refine ⟨by rw [always_check_date _ d hdate], ?_, ?_, ?_, hoffset⟩ <;> omega

theorem isBlank_digitChar {d : Nat} (h : d < 10) :
    (d.digitChar == ' ' || d.digitChar == '\t') = false := by
  decide +revert

/-- A fraction of a second is read from its digits. -/
theorem microseconds_zeroPadded {n : Nat} (h : n < 1000000) :
    microseconds (zeroPadded 6 n).toList = n := by
  have hlength : (Nat.toDigits 10 n).length ≤ 6 :=
    (Nat.length_toDigits_le_iff (by decide) (by decide)).mpr h
  have hsix : (zeroPadded 6 n).toList.length = 6 := by
    rw [zeroPadded, String.toList_ofList, padLeft, List.length_append, List.length_replicate]
    omega
  rw [microseconds, hsix, List.take_of_length_le (Nat.le_of_eq hsix), List.replicate_zero,
    List.append_nil, zeroPadded, String.toList_ofList, padLeft,
    readDigits?_toDigits (by decide) (by decide)]
  rfl

/-- The characters of an offset of whole minutes. -/
theorem toList_offsetText {s : Int} (hday : s.natAbs < secondsPerDay) (hminutes : s % 60 = 0) :
    (Moment.offsetText s).toList = (if s < 0 then '-' else '+') ::
      (s.natAbs / 3600 / 10).digitChar :: (s.natAbs / 3600 % 10).digitChar :: ':' ::
        (s.natAbs / 60 % 60 / 10).digitChar :: [(s.natAbs / 60 % 60 % 10).digitChar] := by
  have hhours : s.natAbs / 3600 < 100 := by
    rw [secondsPerDay] at hday
    omega
  have hseconds : s.natAbs % 60 = 0 := by omega
  have hsign : (if s < 0 then "-" else "+").toList = [if s < 0 then '-' else '+'] := by
    split <;> rfl
  have hchars : (Moment.offsetText s).toList = (if s < 0 then "-" else "+").toList ++
      ((zeroPadded 2 (s.natAbs / 3600)).toList ++
        ':' :: (zeroPadded 2 (s.natAbs / 60 % 60)).toList) := by
    simp [Moment.offsetText, hseconds, toString]
  rw [hchars, hsign, toList_zeroPadded_two hhours, toList_zeroPadded_two (by omega)]
  rfl

/-- A sign, hours and minutes are an offset. -/
theorem offsetPart_signed {sign : Char} (hsign : sign = '-' ∨ sign = '+') {a b c d : Nat}
    (ha : a < 10) (hb : b < 10) (hc : c < 10) (hd : d < 10) :
    offsetPart (sign :: a.digitChar :: b.digitChar :: ':' :: c.digitChar :: [d.digitChar]) =
      some (some (if sign == '-' then -(((10 * a + b : Nat) : Int) * 3600 + (10 * c + d : Nat) * 60)
        else ((10 * a + b : Nat) : Int) * 3600 + (10 * c + d : Nat) * 60)) := by
  have hblank : (sign == ' ' || sign == '\t') = false := by rcases hsign with rfl | rfl <;> decide
  have hsign' : (sign == '+' || sign == '-') = true := by rcases hsign with rfl | rfl <;> decide
  rw [offsetPart, List.isEmpty_cons, if_neg Bool.false_ne_true,
    List.dropWhile_cons_of_neg (by rw [hblank]; exact Bool.false_ne_true)]
  simp only [hsign', ↓reduceIte, oneOrTwoDigits_digitChar ha hb, twoDigits_digitChar hc hd,
    Option.bind_eq_bind, Option.bind_some, Option.pure_def]

/-- An offset is read from its hours and minutes. -/
theorem offsetPart_offsetText {s : Int} (hday : s.natAbs < secondsPerDay) (hminutes : s % 60 = 0) :
    offsetPart (Moment.offsetText s).toList = some (some s) := by
  have hhours : s.natAbs / 3600 < 100 := by
    rw [secondsPerDay] at hday
    omega
  have hhours' : 10 * (s.natAbs / 3600 / 10) + s.natAbs / 3600 % 10 = s.natAbs / 3600 := by omega
  have hminutes' : 10 * (s.natAbs / 60 % 60 / 10) + s.natAbs / 60 % 60 % 10 = s.natAbs / 60 % 60 := by
    omega
  have hsign : (if s < 0 then '-' else '+') = '-' ∨ (if s < 0 then '-' else '+') = '+' := by
    split
    · exact .inl rfl
    · exact .inr rfl
  rw [toList_offsetText hday hminutes,
    offsetPart_signed hsign (by omega) (by omega) (by omega) (by omega), hhours', hminutes']
  congr 2
  rcases Int.lt_or_le s 0 with hs | hs
  · rw [if_pos hs, if_pos (by decide)]
    omega
  · rw [if_neg (Int.not_lt.mpr hs), if_neg (by decide)]
    omega

/-- The offset of a moment, if it has one, is read. -/
theorem offsetPart_offsetChars {m : Moment}
    (hday : ∀ s, m.offset = some s → s.natAbs < secondsPerDay)
    (hminutes : ∀ s, m.offset = some s → s % 60 = 0) :
    offsetPart (offsetChars m) = some m.offset := by
  rw [offsetChars]
  cases hs : m.offset with
  | none => rfl
  | some s => exact offsetPart_offsetText (hday s hs) (hminutes s hs)

/-- The characters that end the digits of a second. -/
theorem head_offsetChars {m : Moment} (hday : ∀ s, m.offset = some s → s.natAbs < secondsPerDay)
    (hminutes : ∀ s, m.offset = some s → s % 60 = 0) {c : Char} {rest : List Char}
    (h : offsetChars m = c :: rest) : c = '-' ∨ c = '+' := by
  rw [offsetChars] at h
  cases hs : m.offset with
  | none =>
    rw [hs] at h
    cases h
  | some s =>
    rw [hs, Option.map_some, Option.getD_some, toList_offsetText (hday s hs) (hminutes s hs)] at h
    rw [← (List.cons.inj h).1]
    split
    · exact .inl rfl
    · exact .inr rfl

/-- The digits of a fraction end where the offset begins. -/
theorem isDigit_head_offsetChars {m : Moment}
    (hday : ∀ s, m.offset = some s → s.natAbs < secondsPerDay)
    (hminutes : ∀ s, m.offset = some s → s % 60 = 0) (c : Char)
    (h : (offsetChars m).head? = some c) : isDigit c = false := by
  obtain ⟨rest, hrest⟩ := List.head?_eq_some_iff.mp h
  rcases head_offsetChars hday hminutes hrest with rfl | rfl <;> decide

/-- The time of day of a moment and its offset are read. -/
theorem timePart_timeChars {m : Moment} (hhour : m.hour < 100) (hminute : m.minute < 100)
    (hsecond : m.second < 100) (hday : ∀ s, m.offset = some s → s.natAbs < secondsPerDay)
    (hminutes : ∀ s, m.offset = some s → s % 60 = 0) (hmicro : m.microsecond < 1000000) :
    ∃ fraction, microseconds fraction = m.microsecond ∧
      timePart (' ' :: (timeChars m ++ (fractionChars m ++ offsetChars m))) =
        some ((m.hour, m.minute, m.second, fraction), m.offset) := by
  have hhour' : 10 * (m.hour / 10) + m.hour % 10 = m.hour := by omega
  have hminute' : 10 * (m.minute / 10) + m.minute % 10 = m.minute := by omega
  have hsecond' : 10 * (m.second / 10) + m.second % 10 = m.second := by omega
  have hblank := isBlank_digitChar (show m.hour / 10 < 10 by omega)
  rw [timeChars, toList_zeroPadded_two hhour, toList_zeroPadded_two hminute,
    toList_zeroPadded_two hsecond]
  simp only [List.cons_append, List.nil_append]
  rw [timePart, if_neg (by decide), if_pos (by decide),
    List.dropWhile_cons_of_neg (by rw [hblank]; exact Bool.false_ne_true)]
  simp only [Option.bind_eq_bind, Option.pure_def, Option.bind_some]
  rw [oneOrTwoDigits_digitChar (by omega) (by omega)]
  simp only [Option.bind_some]
  rw [twoDigits_digitChar (by omega) (by omega)]
  simp only [Option.bind_some]
  rw [twoDigits_digitChar (by omega) (by omega)]
  simp only [Option.bind_some, hhour', hminute', hsecond']
  have hoffset := offsetPart_offsetChars hday hminutes
  split
  · next rest heq =>
    rw [fractionChars] at heq
    split at heq
    · rcases head_offsetChars hday hminutes heq with h | h <;> exact absurd h (by decide)
    · rw [List.cons_append] at heq
      obtain rfl := (List.cons.inj heq).2
      have hdigits : ∀ c ∈ (zeroPadded 6 m.microsecond).toList, isDigit c = true :=
        fun c hc => isDigit_of_mem_zeroPadded hc
      rw [takeWhile_append_stop hdigits (isDigit_head_offsetChars hday hminutes),
        dropWhile_append_stop hdigits (isDigit_head_offsetChars hday hminutes), hoffset]
      exact ⟨_, microseconds_zeroPadded hmicro, rfl⟩
  · next hpoint =>
    have hzero : m.microsecond = 0 := by
      by_contra hne
      rw [fractionChars, if_neg hne] at hpoint
      exact hpoint _ rfl
    rw [fractionChars, if_pos hzero, List.nil_append, hoffset]
    exact ⟨[], hzero.symm, rfl⟩

theorem takesColumn_of_mem_offsetText {s : Int} {c : Char} (h : c ∈ (Moment.offsetText s).toList) :
    TakesColumn c := by
  have hchars : (Moment.offsetText s).toList = (if s < 0 then "-" else "+").toList ++
      ((zeroPadded 2 (s.natAbs / 3600)).toList ++ ':' :: ((zeroPadded 2 (s.natAbs / 60 % 60)).toList ++
        (if s.natAbs % 60 = 0 then "" else ":" ++ zeroPadded 2 (s.natAbs % 60)).toList)) := by
    simp [Moment.offsetText, toString]
  rw [hchars] at h
  simp only [List.mem_append, List.mem_cons] at h
  rcases h with h | h | rfl | h | h
  · split at h
    all_goals
      rw [List.mem_singleton.mp h]
      decide
  · exact takesColumn_of_mem_zeroPadded h
  · decide
  · exact takesColumn_of_mem_zeroPadded h
  · split at h
    · cases h
    · rw [String.toList_append, List.mem_append] at h
      rcases h with h | h
      · rw [List.mem_singleton.mp h]
        decide
      · exact takesColumn_of_mem_zeroPadded h

/-- A moment is written in visible characters. -/
theorem takesColumn_of_mem_moment {m : Moment} {c : Char} (h : c ∈ (m.isoText " ").toList) :
    TakesColumn c := by
  have hfraction : c ∈ fractionChars m → TakesColumn c := by
    intro h
    rw [fractionChars] at h
    split at h
    · cases h
    · rcases List.mem_cons.mp h with rfl | h
      · decide
      · exact takesColumn_of_mem_zeroPadded h
  have hoffset : c ∈ offsetChars m → TakesColumn c := by
    intro h
    rw [offsetChars] at h
    cases hs : m.offset with
    | none =>
      rw [hs] at h
      cases h
    | some s =>
      rw [hs, Option.map_some, Option.getD_some] at h
      exact takesColumn_of_mem_offsetText h
  simp only [toList_moment, timeChars, List.mem_append, List.mem_cons] at h
  rcases h with h | rfl | (h | rfl | h | rfl | h) | h | h
  · exact takesColumn_of_mem_isoText h
  · decide
  · exact takesColumn_of_mem_zeroPadded h
  · decide
  · exact takesColumn_of_mem_zeroPadded h
  · decide
  · exact takesColumn_of_mem_zeroPadded h
  · exact hfraction h
  · exact hoffset h

/-- **A moment of the calendar comes back**, if its offset is one of whole minutes. -/
theorem comesBack_moment {m : Moment} (h : m.check = .ok m) (hmicro : m.microsecond < 1000000)
    (hminutes : ∀ s, m.offset = some s → s % 60 = 0) (label : Option Label) :
    ComesBack (.moment label m) := by
  refine ⟨Tag.timestamp, m.isoText " ", false, rfl, fun label' => ?_⟩
  obtain ⟨hdate, hhour, hminute, hsecond, hday⟩ := bounds_of_check_moment h
  obtain ⟨fraction, hfraction, htime⟩ :=
    timePart_timeChars hhour hminute hsecond hday hminutes hmicro
  have hparts := timestampParts?_isoText hdate
    (' ' :: (timeChars m ++ (fractionChars m ++ offsetChars m)))
  rw [List.isEmpty_cons, if_neg Bool.false_ne_true, htime, ← toList_moment] at hparts
  rw [scalarValue_timestamp, timestampValue,
    dropFinalBreak_eq fun _ hc => takesColumn_of_mem_moment hc, hparts]
  simp only [Option.map_some, hfraction]
  rw [h]
  rfl

/-! ## Doubles -/

/-- No capital letters are in a numeral. -/
theorem moved_smallRuns {c : Char} (h : c ∈ Json.numeralChars) :
    Text.CaseRun.moved Text.smallRuns c = c := by
  have hruns : (Text.smallRuns.toList.all fun r =>
      Json.numeralChars.all fun c => !r.has c.toNat) = true := by decide +kernel
  have hnone : Text.smallRuns.find? (·.has c.toNat) = none := by
    rw [← Array.find?_toList, List.find?_eq_none]
    intro r hr
    simpa using List.all_eq_true.mp (List.all_eq_true.mp hruns r hr) c h
  rw [Text.CaseRun.moved, hnone]

theorem smallFrom_of_mem_numeralChars {cs : List Char} (h : ∀ c ∈ cs, c ∈ Json.numeralChars) :
    ∀ before, Text.smallFrom before cs = cs := by
  have hdotted : ∀ c ∈ Json.numeralChars, (c != '\u0130') = true := List.all_eq_true.mp (by decide)
  have hfinal : ∀ c ∈ Json.numeralChars, (c != '\u03a3') = true := List.all_eq_true.mp (by decide)
  induction cs with
  | nil => exact fun _ => rfl
  | cons c cs ih =>
    intro before
    rw [List.forall_mem_cons] at h
    have hdotted' : (c == '\u0130') = false := by simpa using hdotted c h.1
    have hfinal' : (c == '\u03a3') = false := by simpa using hfinal c h.1
    rw [Text.smallFrom, ih h.2, Text.small, hdotted', hfinal', moved_smallRuns h.1]
    rfl

/-- Puts a point in front of an exponent. -/
def pointed (c : Char) : List Char := if c == 'e' then ['.', '0', 'e'] else [c]

theorem flatMap_pointed {cs : List Char} (h : ∀ c ∈ cs, c ≠ 'e') : cs.flatMap pointed = cs := by
  have hsame : ∀ c ∈ cs, pointed c = [c] := fun c hc => if_neg (by simpa using h c hc)
  rw [List.flatMap_congr hsame, List.flatMap_singleton']

/-- A finite double is written as a numeral of it. -/
theorem exists_floatForm {units : Nat} (hunits : Binary64.IsMagnitude units) (negative : Bool) :
    ∃ p : Json.Numeral, scalarForm.floatForm (.finite negative units) =
      String.ofList (p.signed negative) ∧ p.Denotes units := by
  obtain ⟨p, htext, hp⟩ := Json.exists_toText hunits negative
  have hform : scalarForm.floatForm (.finite negative units) =
      if (p.signed negative).contains 'e' && !(p.signed negative).contains '.' then
        String.ofList ((p.signed negative).flatMap pointed)
      else String.ofList (p.signed negative) := by
    have hchars : (Binary64.finite negative units).toText.toList = p.signed negative := by
      rw [htext, String.toList_ofList]
    exact hchars ▸ rfl
  rw [hform]
  split
  · next hletter =>
    simp only [Bool.and_eq_true, Bool.not_eq_true', List.contains_iff_mem] at hletter
    have hnone : p.fraction = [] := by
      by_contra hsome
      have hpoint : '.' ∈ p.signed negative := by
        rw [Json.Numeral.signed, Json.Numeral.text, if_neg hsome]
        split <;> simp
      rw [← List.contains_iff_mem, hletter.2] at hpoint
      cases hpoint
    obtain hnil | ⟨sign, digits, hsign, hdigits, hexponent⟩ := hp.exponent
    · exact absurd hnil (hp.decimal.resolve_left (· hnone))
    have hwhole : ∀ c ∈ p.whole, c ≠ 'e' := fun c hc => Json.ne_of_digit (hp.whole.1.2 c hc) rfl
    have hrest : ∀ c ∈ sign :: digits, c ≠ 'e' := by
      rw [List.forall_mem_cons]
      refine ⟨?_, fun c hc => Json.ne_of_digit (hdigits.2 c hc) rfl⟩
      rcases hsign with rfl | rfl <;> decide
    have htext : p.text.flatMap pointed = Json.Numeral.text ⟨p.whole, ['0'], p.exponent⟩ := by
      rw [Json.Numeral.text, if_pos hnone, hexponent, List.flatMap_append, flatMap_pointed hwhole,
        List.flatMap_cons, flatMap_pointed hrest]
      rfl
    refine ⟨_, ?_, hp.withZero hnone⟩
    rw [Json.Numeral.signed, Json.Numeral.signed, ← htext]
    split <;> rfl
  · exact ⟨p, rfl, hp⟩

/-- **A numeral is read as its double.** -/
theorem floatValue_signed {p : Json.Numeral} {units : Nat} (hp : p.Denotes units)
    (negative : Bool) :
    floatValue (String.ofList (p.signed negative)) = .ok (.finite negative units) := by
  have hunderscore : ∀ c ∈ Json.numeralChars, (c != '_') = true := List.all_eq_true.mp (by decide)
  have hcolon : ∀ c ∈ Json.numeralChars, (c != ':') = true := List.all_eq_true.mp (by decide)
  have hblank : ∀ c ∈ Json.numeralChars, (!Text.isBlank c) = true := List.all_eq_true.mp (by decide)
  have hdigit : ∀ c ∈ Json.numeralChars, (Text.asciiDigit c == c) = true :=
    List.all_eq_true.mp (by decide)
  have hfilter : (p.signed negative).filter (· != '_') = p.signed negative :=
    List.filter_eq_self.mpr fun c hc => hunderscore c (hp.mem_numeralChars_signed hc)
  obtain ⟨c, cs, htext, -⟩ := hp.exists_text
  have hempty : (p.signed negative).isEmpty = false := by
    rw [Json.Numeral.signed, htext]
    split <;> rfl
  have hplaces : p.text.contains ':' = false := by
    rw [← Bool.not_eq_true, List.contains_iff_mem]
    exact fun hmem => absurd rfl (bne_iff_ne.mp (hcolon _ (hp.mem_numeralChars hmem)))
  have hread : readFloat p.text = .ok (.finite false units) := by
    have htrim : Text.trim p.text = p.text :=
      trim_eq fun c hc => by simpa using hblank c (hp.mem_numeralChars hc)
    have hmap : p.text.map Text.asciiDigit = p.text :=
      (List.map_congr_left fun c hc => eq_of_beq (hdigit c (hp.mem_numeralChars hc))).trans
        (List.map_id _)
    have hdouble : Binary64.ofText? p.text = some (.finite false units) := hp.ofText?_signed false
    rw [readFloat, htrim, hmap, hdouble]
  rw [floatValue, String.toList_ofList, hfilter,
    smallFrom_of_mem_numeralChars fun c hc => hp.mem_numeralChars_signed hc]
  simp only [hempty, Bool.false_eq_true, ↓reduceIte, hp.takeSign_signed]
  split
  · next heq => exact absurd heq (hp.ofList_text_ne rfl)
  · next heq => exact absurd heq (hp.ofList_text_ne rfl)
  · rw [hplaces, hread]
    cases negative <;> rfl

/-- **A double comes back.** -/
theorem comesBack_float {x : Binary64} (h : x.IsDouble) : ComesBack (.float x) := by
  refine ⟨Tag.float, scalarForm.floatForm x, false, rfl, fun _ => ?_⟩
  have hvalue : floatValue (scalarForm.floatForm x) = .ok x := by
    cases x with
    | nan => decide +kernel
    | infinite negative => cases negative <;> decide +kernel
    | finite negative units =>
      obtain ⟨p, hform, hp⟩ := exists_floatForm (h negative units rfl) negative
      rw [hform, floatValue_signed hp]
  rw [scalarValue, if_neg (by decide), if_neg (by decide), if_neg (by decide), if_neg (by decide),
    if_pos rfl, hvalue]
  rfl

end DevMachines.Yaml
