import DevMachines.Proofs.Json.Layout
import DevMachines.Proofs.Results
import DevMachines.Proofs.Value.Unlabelled
import DevMachines.Value.Json

/-!
# Which values have a JSON form, and what it says

A value has a JSON form exactly if no integer in it is too long to be written, nothing in it stands
inside itself, and each of its maps has member names for keys (`exists_toJson_iff`).  Where there is
none, the fault names what is in the way (`onlyFails_toJson`).

What JSON cannot say is written as text, so the form says less than the value.  `Value.readBack` is
the value that is read from the form, for every value; and a value made of nothing but null, truth
values, numbers, texts, lists and maps with texts for keys is read back as it is
(`readBack_eq_unlabelled`).

## Parts of a value

What matters is the parts that have a JSON form of their own.  Elements of a set and keys of a map are
no parts in this sense (`Within`): a set is written as one text, and a key as a member name.
-/

namespace DevMachines
namespace Value

/-! ## Parts -/

/-- Is a value another one, an item or member of it, or one of those of such a part? -/
inductive Within (part : Value) : Value → Prop
  | self : Within part part
  | item {label : Option Label} {items : List Value} {v : Value} (hv : v ∈ items)
      (h : Within part v) : Within part (.list label items)
  | first {label : Option Label} {a b : Value} (h : Within part a) : Within part (.pair label a b)
  | second {label : Option Label} {a b : Value} (h : Within part b) : Within part (.pair label a b)
  | member {label : Option Label} {entries : List (Value × Value)} {e : Value × Value}
      (he : e ∈ entries) (h : Within part e.2) : Within part (.map label entries)

/-- Can a value be a member name? -/
def IsMemberKey : Value → Prop
  | .null | .bool _ | .int _ | .float _ | .text _ => True
  | _ => False

/-- What a value needs to have a JSON form. -/
structure HasJsonForm (v : Value) : Prop where
  short : v.holdsLongInt = false
  unrolled : ∀ label, ¬ Within (.again label) v
  keyed : ∀ label entries, Within (.map label entries) v → ∀ e ∈ entries, e.1.IsMemberKey

theorem anyHoldsLongInt_eq (vs : List Value) : anyHoldsLongInt vs = vs.any holdsLongInt := by
  induction vs with
  | nil => rfl
  | cons v vs ih => rw [anyHoldsLongInt, ih, List.any_cons]

theorem entriesHoldLongInt_eq (entries : List (Value × Value)) : entriesHoldLongInt entries =
    entries.any fun e => e.1.holdsLongInt || e.2.holdsLongInt := by
  induction entries with
  | nil => rfl
  | cons e entries ih => rw [entriesHoldLongInt, ih, List.any_cons]

/-- Does a value have parts besides itself? -/
def HasParts : Value → Prop
  | .list .. | .pair .. | .map .. => True
  | _ => False

theorem Within.eq_self {part v : Value} (h : Within part v) (hv : ¬ v.HasParts) : part = v := by
  cases h with
  | self => rfl
  | item | first | second | member => exact absurd trivial hv

/-- A value without parts has a JSON form unless it is a long integer, or holds one. -/
theorem hasJsonForm_of_not_hasParts {v : Value} (hv : ¬ v.HasParts) (hshort : v.holdsLongInt = false)
    (hagain : ∀ label, v ≠ .again label) : v.HasJsonForm where
  short := hshort
  unrolled label h := hagain label (h.eq_self hv).symm
  keyed _ _ h := absurd (h.eq_self hv ▸ trivial) hv

theorem hasJsonForm_list {label : Option Label} {items : List Value} :
    (Value.list label items).HasJsonForm ↔ ∀ v ∈ items, v.HasJsonForm := by
  have hlong : (Value.list label items).holdsLongInt = items.any holdsLongInt :=
    anyHoldsLongInt_eq items
  constructor
  · intro h v hv
    refine ⟨?_, fun l hl => h.unrolled l (.item hv hl), fun l es hm => h.keyed l es (.item hv hm)⟩
    have hshort := h.short
    rw [hlong, List.any_eq_false] at hshort
    exact Bool.eq_false_iff.mpr (hshort v hv)
  · intro h
    refine ⟨?_, ?_, ?_⟩
    · rw [hlong, List.any_eq_false]
      exact fun v hv => Bool.eq_false_iff.mp (h v hv).short
    · rintro l (_ | ⟨hv, hl⟩)
      exact (h _ hv).unrolled l hl
    · rintro l es (_ | ⟨hv, hm⟩)
      exact (h _ hv).keyed l es hm

theorem hasJsonForm_pair {label : Option Label} {a b : Value} :
    (Value.pair label a b).HasJsonForm ↔ a.HasJsonForm ∧ b.HasJsonForm := by
  have hlong : (Value.pair label a b).holdsLongInt = (a.holdsLongInt || b.holdsLongInt) := rfl
  constructor
  · intro h
    have hshort := h.short
    rw [hlong, Bool.or_eq_false_iff] at hshort
    exact ⟨⟨hshort.1, fun l hl => h.unrolled l (.first hl), fun l es hm => h.keyed l es (.first hm)⟩,
      ⟨hshort.2, fun l hl => h.unrolled l (.second hl), fun l es hm => h.keyed l es (.second hm)⟩⟩
  · rintro ⟨ha, hb⟩
    refine ⟨?_, ?_, ?_⟩
    · rw [hlong, ha.short, hb.short]
      rfl
    · rintro l (_ | _ | hl | hl)
      · exact ha.unrolled l hl
      · exact hb.unrolled l hl
    · rintro l es (_ | _ | hm | hm)
      · exact ha.keyed l es hm
      · exact hb.keyed l es hm

theorem hasJsonForm_map {label : Option Label} {entries : List (Value × Value)} :
    (Value.map label entries).HasJsonForm ↔ ∀ e ∈ entries,
      e.1.IsMemberKey ∧ e.1.holdsLongInt = false ∧ e.2.HasJsonForm := by
  have hlong : (Value.map label entries).holdsLongInt =
      entries.any fun e => e.1.holdsLongInt || e.2.holdsLongInt := entriesHoldLongInt_eq entries
  constructor
  · intro h e he
    have hshort := h.short
    rw [hlong, List.any_eq_false] at hshort
    have hboth := Bool.or_eq_false_iff.mp (Bool.eq_false_iff.mpr (hshort e he))
    exact ⟨h.keyed label entries .self e he, hboth.1, hboth.2,
      fun l hl => h.unrolled l (.member he hl), fun l es hm => h.keyed l es (.member he hm)⟩
  · intro h
    refine ⟨?_, ?_, ?_⟩
    · rw [hlong, List.any_eq_false]
      intro e he
      rw [(h e he).2.1, (h e he).2.2.short]
      decide
    · rintro l (_ | _ | _ | _ | ⟨he, hl⟩)
      exact (h _ he).2.2.unrolled l hl
    · rintro l es (_ | _ | _ | _ | ⟨he, hm⟩)
      · exact fun e he => (h e he).1
      · exact (h _ he).2.2.keyed l es hm

/-! ## A form needs all of that -/

/-- A key whose name is known can be one, and is no long integer. -/
theorem always_memberName (key : Value) :
    Always (fun _ => key.IsMemberKey ∧ key.holdsLongInt = false) key.memberName := by
  cases key with
  | int n =>
    rw [memberName]
    split
    · exact always_error
    · next hshort => exact always_ok ⟨trivial, Bool.eq_false_iff.mpr hshort⟩
  | null | bool | float | text => exact always_ok ⟨trivial, rfl⟩
  | _ => exact always_error

section Form

variable (other : Value → String)

/-- Is a value one that JSON has no form for, so that it is written as a text? -/
def IsForeign : Value → Prop
  | .octets _ | .date .. | .moment .. | .set .. => True
  | _ => False

theorem toJson_of_isForeign {v : Value} (h : v.IsForeign) : toJson other v =
    if v.holdsLongInt then .error .tooManyDigits else .ok (.str (other v)) := by
  cases v with
  | octets | date | moment | set => rfl
  | _ => exact absurd h id

mutual

theorem always_toJson (v : Value) : Always (fun _ => v.HasJsonForm) (toJson other v) := by
  cases v with
  | null | bool | float | text =>
    exact always_ok (hasJsonForm_of_not_hasParts id rfl nofun)
  | int n =>
    rw [toJson]
    split
    · exact always_error
    · next hshort =>
      have hshort' : (Value.int n).holdsLongInt = false := Bool.eq_false_iff.mpr hshort
      exact always_ok (hasJsonForm_of_not_hasParts id hshort' nofun)
  | list label items =>
    exact (always_toJsonItems items).map fun _ h => hasJsonForm_list.mpr h
  | pair label a b =>
    exact (always_toJson a).bind fun _ ha => (always_toJson b).bind fun _ hb =>
      always_ok (hasJsonForm_pair.mpr ⟨ha, hb⟩)
  | map label entries =>
    exact (always_toJsonMembers entries).map fun _ h => hasJsonForm_map.mpr h
  | again label => exact always_error
  | octets | date | moment | set =>
    rw [toJson_of_isForeign]
    · split
      · exact always_error
      · next hshort =>
        exact always_ok (hasJsonForm_of_not_hasParts id (Bool.eq_false_iff.mpr hshort) nofun)
    · trivial

theorem always_toJsonItems (items : List Value) :
    Always (fun _ => ∀ v ∈ items, v.HasJsonForm) (toJsonItems other items) := by
  cases items with
  | nil => exact always_ok nofun
  | cons v items =>
    exact (always_toJson v).bind fun _ hv => (always_toJsonItems items).bind fun _ hitems =>
      always_ok (List.forall_mem_cons.mpr ⟨hv, hitems⟩)

theorem always_toJsonMembers (entries : List (Value × Value)) :
    Always (fun _ => ∀ e ∈ entries, e.1.IsMemberKey ∧ e.1.holdsLongInt = false ∧ e.2.HasJsonForm)
      (toJsonMembers other entries) := by
  cases entries with
  | nil => exact always_ok nofun
  | cons e entries =>
    exact (always_memberName e.1).bind fun _ hkey => (always_toJson e.2).bind fun _ hv =>
      (always_toJsonMembers entries).bind fun _ hentries =>
        always_ok (List.forall_mem_cons.mpr ⟨⟨hkey.1, hkey.2, hv⟩, hentries⟩)

end

/-! ## What is in the way of a form -/

/-- What a fault says is in a value. -/
inductive Hinders : JsonFault → Value → Prop
  | key {v : Value} {label : Option Label} {entries : List (Value × Value)} {e : Value × Value}
      (hmap : Within (.map label entries) v) (he : e ∈ entries) (hkey : ¬ e.1.IsMemberKey) :
      Hinders (.badKey e.1.kindName) v
  | circle {v : Value} {label : Label} (h : Within (.again label) v) : Hinders .circular v
  | digits {v : Value} (h : v.holdsLongInt = true) : Hinders .tooManyDigits v

/-- What hinders a value from having a form keeps it from having one. -/
theorem Hinders.not_hasJsonForm {fault : JsonFault} {v : Value} (h : Hinders fault v) :
    ¬ v.HasJsonForm := by
  intro hform
  cases h with
  | key hmap he hkey => exact hkey (hform.keyed _ _ hmap _ he)
  | circle h => exact hform.unrolled _ h
  | digits h => exact absurd (hform.short.symm.trans h) (by decide)

/-- What hinders a part hinders the whole. -/
theorem Hinders.mono {fault : JsonFault} {v w : Value} (h : Hinders fault v)
    (hwithin : ∀ part, Within part v → Within part w)
    (hlong : v.holdsLongInt = true → w.holdsLongInt = true) : Hinders fault w := by
  cases h with
  | key hmap he hkey => exact .key (hwithin _ hmap) he hkey
  | circle h => exact .circle (hwithin _ h)
  | digits h => exact .digits (hlong h)

/-- What is in the way of a member: its key, or something in its value. -/
def HindersMember (fault : JsonFault) (e : Value × Value) : Prop :=
  Hinders fault e.2 ∨ fault = .tooManyDigits ∧ e.1.holdsLongInt = true ∨
    fault = .badKey e.1.kindName ∧ ¬ e.1.IsMemberKey

theorem hinders_list {label : Option Label} {items : List Value} {fault : JsonFault}
    (h : ∃ v ∈ items, Hinders fault v) : Hinders fault (.list label items) := by
  obtain ⟨v, hv, h⟩ := h
  refine h.mono (fun _ hpart => .item hv hpart) fun hlong => ?_
  show anyHoldsLongInt items = true
  rw [anyHoldsLongInt_eq]
  exact List.any_eq_true.mpr ⟨v, hv, hlong⟩

theorem hinders_map {label : Option Label} {entries : List (Value × Value)} {fault : JsonFault}
    (h : ∃ e ∈ entries, HindersMember fault e) : Hinders fault (.map label entries) := by
  obtain ⟨e, he, h⟩ := h
  have hlong : (e.1.holdsLongInt || e.2.holdsLongInt) = true →
      (Value.map label entries).holdsLongInt = true := by
    intro hlong
    show entriesHoldLongInt entries = true
    rw [entriesHoldLongInt_eq]
    exact List.any_eq_true.mpr ⟨e, he, hlong⟩
  rcases h with h | ⟨rfl, hkey⟩ | ⟨rfl, hkey⟩
  · refine h.mono (fun _ hpart => .member he hpart) fun hvalue => hlong ?_
    rw [hvalue, Bool.or_true]
  · exact .digits (hlong (by rw [hkey, Bool.true_or]))
  · exact .key .self he hkey

theorem onlyFails_memberName (key v : Value) :
    OnlyFails (fun fault => HindersMember fault (key, v)) key.memberName := by
  cases key with
  | int n =>
    rw [memberName]
    split
    · next hlong => exact onlyFails_error (Or.inr (Or.inl ⟨rfl, hlong⟩))
    · exact onlyFails_ok
  | null | bool | float | text => exact onlyFails_ok
  | _ => exact onlyFails_error (Or.inr (Or.inr ⟨rfl, id⟩))

mutual

/-- **A fault names what is in the way.** -/
theorem onlyFails_toJson (v : Value) : OnlyFails (Hinders · v) (toJson other v) := by
  cases v with
  | null | bool | float | text => exact onlyFails_ok
  | int n =>
    rw [toJson]
    split
    · next hlong => exact onlyFails_error (.digits hlong)
    · exact onlyFails_ok
  | list label items =>
    exact ((onlyFails_toJsonItems items).mono fun _ => hinders_list).map
  | pair label a b =>
    have ha := (onlyFails_toJson a).mono fun _ h => h.mono (w := .pair label a b)
      (fun _ hpart => .first hpart) fun hlong => by simp [holdsLongInt, hlong]
    have hb := (onlyFails_toJson b).mono fun _ h => h.mono (w := .pair label a b)
      (fun _ hpart => .second hpart) fun hlong => by simp [holdsLongInt, hlong]
    exact ha.bind fun _ => hb.bind fun _ => onlyFails_ok
  | map label entries =>
    exact ((onlyFails_toJsonMembers entries).mono fun _ => hinders_map).map
  | again label => exact onlyFails_error (.circle .self)
  | octets | date | moment | set =>
    rw [toJson_of_isForeign]
    · split
      · next hlong => exact onlyFails_error (.digits hlong)
      · exact onlyFails_ok
    · trivial

theorem onlyFails_toJsonItems (items : List Value) :
    OnlyFails (fun fault => ∃ v ∈ items, Hinders fault v) (toJsonItems other items) := by
  cases items with
  | nil => exact onlyFails_ok
  | cons v items =>
    have hv := (onlyFails_toJson v).mono fun fault h =>
      (⟨v, List.mem_cons_self .., h⟩ : ∃ w ∈ v :: items, Hinders fault w)
    have hitems := (onlyFails_toJsonItems items).mono fun fault ⟨w, hw, h⟩ =>
      (⟨w, List.mem_cons_of_mem v hw, h⟩ : ∃ w ∈ v :: items, Hinders fault w)
    exact hv.bind fun _ => hitems.bind fun _ => onlyFails_ok

theorem onlyFails_toJsonMembers (entries : List (Value × Value)) :
    OnlyFails (fun fault => ∃ e ∈ entries, HindersMember fault e)
      (toJsonMembers other entries) := by
  cases entries with
  | nil => exact onlyFails_ok
  | cons e entries =>
    have hkey := (onlyFails_memberName e.1 e.2).mono fun fault h =>
      (⟨e, List.mem_cons_self .., h⟩ : ∃ m ∈ e :: entries, HindersMember fault m)
    have hv := (onlyFails_toJson e.2).mono fun fault h =>
      (⟨e, List.mem_cons_self .., Or.inl h⟩ : ∃ m ∈ e :: entries, HindersMember fault m)
    have hrest := (onlyFails_toJsonMembers entries).mono fun fault ⟨m, hm, h⟩ =>
      (⟨m, List.mem_cons_of_mem e hm, h⟩ : ∃ m ∈ e :: entries, HindersMember fault m)
    exact hkey.bind fun _ => hv.bind fun _ => hrest.bind fun _ => onlyFails_ok

end

/-- **A value has a JSON form exactly if nothing is in the way.** -/
theorem exists_toJson_iff (v : Value) : (∃ json, toJson other v = .ok json) ↔ v.HasJsonForm := by
  constructor
  · rintro ⟨json, h⟩
    exact always_toJson other v json h
  · intro hform
    cases h : toJson other v with
    | ok json => exact ⟨json, rfl⟩
    | error fault => exact absurd hform (onlyFails_toJson other v fault h).not_hasJsonForm

/-! ## The members of a form -/

/-- Do members have the names of entries, in their order, and the forms of their values? -/
def AreForms (entries : List (String × Value)) (members : List (String × Json)) : Prop :=
  List.Forall₂ (fun e m => e.1 = m.1 ∧ toJson other e.2 = .ok m.2) entries members

section AreForms

variable {other} {entries : List (String × Value)} {members : List (String × Json)}

theorem AreForms.names (h : AreForms other entries members) :
    members.map Prod.fst = entries.map Prod.fst := by
  induction h with
  | nil => rfl
  | cons hm _ ih => rw [List.map_cons, List.map_cons, ih, hm.1]

/-- Every entry has a member. -/
theorem AreForms.exists_mem (h : AreForms other entries members) {e : String × Value}
    (he : e ∈ entries) : ∃ json, toJson other e.2 = .ok json ∧ (e.1, json) ∈ members := by
  induction h with
  | nil => cases he
  | @cons first m entries members hm _ ih =>
    rcases List.mem_cons.mp he with rfl | he
    · exact ⟨m.2, hm.2, hm.1 ▸ List.mem_cons_self ..⟩
    · obtain ⟨json, hjson, hmem⟩ := ih he
      exact ⟨json, hjson, List.mem_cons_of_mem m hmem⟩

theorem always_areForms (entries : List (String × Value)) :
    Always (AreForms other entries)
      (toJsonMembers other (entries.map fun e => (.text e.1, e.2))) := by
  induction entries with
  | nil => exact always_ok .nil
  | cons e entries ih =>
    have hname : Always (· = e.1) (memberName (.text e.1)) := always_ok rfl
    have hvalue : Always (fun v => toJson other e.2 = .ok v) (toJson other e.2) := fun _ h => h
    exact hname.bind fun name hsame => hvalue.bind fun v hv => ih.bind fun members hmembers =>
      always_ok (.cons ⟨hsame.symm, hv⟩ hmembers)

/-- The form of a map with texts for keys is an object with a member for each entry. -/
theorem exists_areForms_of_toJson {label : Option Label} {json : Json}
    (h : toJson other (.map label (entries.map fun e => (.text e.1, e.2))) = .ok json) :
    ∃ members, json = .obj members ∧ AreForms other entries members := by
  have hforms : Always (AreForms other entries) _ := always_areForms entries
  rw [toJson] at h
  cases hmembers : toJsonMembers other (entries.map fun e => (.text e.1, e.2)) with
  | error fault =>
    rw [hmembers] at h
    cases h
  | ok members =>
    rw [hmembers] at h
    exact ⟨members, (Except.ok.inj h).symm, hforms members hmembers⟩

end AreForms

end Form

end Value

/-! ## What is read from a form -/

namespace Json

mutual

/-- The value that a JSON value is read as. -/
def toValue : Json → Value
  | .null => .null
  | .bool b => .bool b
  | .int n => .int n
  | .float x => .float x
  | .str s => .text s
  | .arr items => .list none (toValues items)
  | .obj members => .map none (toEntries members)

/-- The values that items are read as. -/
def toValues : List Json → List Value
  | [] => []
  | v :: rest => toValue v :: toValues rest

/-- The entries that members are read as. -/
def toEntries : List (String × Json) → List (Value × Value)
  | [] => []
  | (name, v) :: rest => (.text name, toValue v) :: toEntries rest

end

end Json

namespace Value

/-- The text of a member name; a key that cannot be one has none. -/
def memberText (key : Value) : String := key.memberName.toOption.getD ""

section ReadBack

variable (other : Value → String)

mutual

/-- The value that is read from the JSON form of a value: a pair is a list, a key is a text, and what
JSON has no form for is the text that it is written as. -/
def readBack : Value → Value
  | .list _ items => .list none (readBackItems items)
  | .pair _ a b => .list none [readBack a, readBack b]
  | .map _ entries => .map none (readBackEntries entries)
  | .octets bs => .text (other (.octets bs))
  | .date label d => .text (other (.date label d))
  | .moment label m => .text (other (.moment label m))
  | .set label elements => .text (other (.set label elements))
  | v => v

/-- The items that are read from the forms of items. -/
def readBackItems : List Value → List Value
  | [] => []
  | v :: rest => readBack v :: readBackItems rest

/-- The entries that are read from the forms of entries. -/
def readBackEntries : List (Value × Value) → List (Value × Value)
  | [] => []
  | (key, v) :: rest => (.text key.memberText, readBack v) :: readBackEntries rest

end

mutual

/-- **The form of a value is read as what `readBack` says.** -/
theorem always_toValue_toJson (v : Value) :
    Always (fun json : Json => json.toValue = v.readBack other) (toJson other v) := by
  cases v with
  | null | bool | float | text => exact always_ok rfl
  | int n =>
    rw [toJson]
    split
    · exact always_error
    · exact always_ok rfl
  | list label items =>
    exact (always_toValues_toJsonItems items).map fun _ h => congrArg (Value.list none) h
  | pair label a b =>
    refine (always_toValue_toJson a).bind fun x hx => (always_toValue_toJson b).bind fun y hy => ?_
    refine always_ok ?_
    show Value.list none [x.toValue, y.toValue] = _
    rw [hx, hy]
    rfl
  | map label entries =>
    exact (always_toEntries_toJsonMembers entries).map fun _ h => congrArg (Value.map none) h
  | again label => exact always_error
  | octets | date | moment | set =>
    rw [toJson_of_isForeign]
    · split
      · exact always_error
      · exact always_ok rfl
    · trivial

theorem always_toValues_toJsonItems (items : List Value) :
    Always (fun json => Json.toValues json = readBackItems other items)
      (toJsonItems other items) := by
  cases items with
  | nil => exact always_ok rfl
  | cons v items =>
    refine (always_toValue_toJson v).bind fun x hx =>
      (always_toValues_toJsonItems items).bind fun xs hxs => always_ok ?_
    rw [Json.toValues, hx, hxs]
    rfl

theorem always_toEntries_toJsonMembers (entries : List (Value × Value)) :
    Always (fun json => Json.toEntries json = readBackEntries other entries)
      (toJsonMembers other entries) := by
  cases entries with
  | nil => exact always_ok rfl
  | cons e entries =>
    have hname : Always (fun name => name = e.1.memberText) e.1.memberName := by
      intro name h
      rw [memberText, h]
      rfl
    refine hname.bind fun name hname => (always_toValue_toJson e.2).bind fun x hx =>
      (always_toEntries_toJsonMembers entries).bind fun xs hxs => always_ok ?_
    rw [Json.toEntries, hname, hx, hxs]
    rfl

end

mutual

/-- The doubles in a form are doubles in the value. -/
theorem always_eachFloat_toJson {p : Binary64 → Prop} (v : Value)
    (h : ∀ x, Within (.float x) v → p x) : Always (Json.EachFloat p) (toJson other v) := by
  cases v with
  | null | bool | text => exact always_ok trivial
  | float x => exact always_ok (h x .self)
  | int n =>
    rw [toJson]
    split
    · exact always_error
    · exact always_ok trivial
  | list label items =>
    exact (always_eachFloat_toJsonItems items fun v hv x hx => h x (.item hv hx)).map fun _ hp => hp
  | pair label a b =>
    exact (always_eachFloat_toJson a fun x hx => h x (.first hx)).bind fun _ ha =>
      (always_eachFloat_toJson b fun x hx => h x (.second hx)).bind fun _ hb =>
        always_ok ⟨ha, hb, trivial⟩
  | map label entries =>
    exact (always_eachFloat_toJsonMembers entries fun e he x hx => h x (.member he hx)).map
      fun _ hp => hp
  | again label => exact always_error
  | octets | date | moment | set =>
    rw [toJson_of_isForeign]
    · split
      · exact always_error
      · exact always_ok trivial
    · trivial

theorem always_eachFloat_toJsonItems {p : Binary64 → Prop} (items : List Value)
    (h : ∀ v ∈ items, ∀ x, Within (.float x) v → p x) :
    Always (Json.EachFloatOfItems p) (toJsonItems other items) := by
  cases items with
  | nil => exact always_ok trivial
  | cons v items =>
    rw [List.forall_mem_cons] at h
    exact (always_eachFloat_toJson v h.1).bind fun _ hv =>
      (always_eachFloat_toJsonItems items h.2).bind fun _ hitems => always_ok ⟨hv, hitems⟩

theorem always_eachFloat_toJsonMembers {p : Binary64 → Prop} (entries : List (Value × Value))
    (h : ∀ e ∈ entries, ∀ x, Within (.float x) e.2 → p x) :
    Always (Json.EachFloatOfMembers p) (toJsonMembers other entries) := by
  cases entries with
  | nil => exact always_ok trivial
  | cons e entries =>
    rw [List.forall_mem_cons] at h
    exact always_bind fun name => (always_eachFloat_toJson e.2 h.1).bind fun _ hv =>
      (always_eachFloat_toJsonMembers entries h.2).bind fun _ hrest => always_ok ⟨hv, hrest⟩

end

/-! ### What is read back as it is -/

/-- Does JSON have a form of its own for a value, apart from its parts? -/
def IsNative : Value → Prop
  | .null | .bool _ | .int _ | .float _ | .text _ | .list .. => True
  | .map _ entries => ∀ e ∈ entries, ∃ s, e.1 = .text s
  | _ => False

mutual

/-- **A value of native parts is read back as it is**, but for the labels that tell objects apart. -/
theorem readBack_eq_unlabelled (v : Value) (h : ∀ part, Within part v → part.IsNative) :
    v.readBack other = v.unlabelled := by
  cases v with
  | null | bool | int | float | text => rfl
  | list label items =>
    have hitems := readBackItems_eq_unlabelled items fun v hv part hp => h part (.item hv hp)
    exact congrArg (Value.list none) hitems
  | map label entries =>
    have hentries := readBackEntries_eq_unlabelled entries (h _ .self)
      fun e he part hp => h part (.member he hp)
    exact congrArg (Value.map none) hentries
  | _ => exact absurd (h _ .self) id

theorem readBackItems_eq_unlabelled (items : List Value)
    (h : ∀ v ∈ items, ∀ part, Within part v → part.IsNative) :
    readBackItems other items = unlabelledItems items := by
  cases items with
  | nil => rfl
  | cons v items =>
    rw [List.forall_mem_cons] at h
    rw [readBackItems, unlabelledItems, readBack_eq_unlabelled v h.1,
      readBackItems_eq_unlabelled items h.2]

theorem readBackEntries_eq_unlabelled (entries : List (Value × Value))
    (hkeys : ∀ e ∈ entries, ∃ s, e.1 = .text s)
    (h : ∀ e ∈ entries, ∀ part, Within part e.2 → part.IsNative) :
    readBackEntries other entries = unlabelledEntries entries := by
  cases entries with
  | nil => rfl
  | cons e entries =>
    obtain ⟨key, v⟩ := e
    rw [List.forall_mem_cons] at hkeys h
    obtain ⟨s, rfl⟩ := hkeys.1
    rw [readBackEntries, unlabelledEntries, readBack_eq_unlabelled v h.1,
      readBackEntries_eq_unlabelled entries hkeys.2 h.2]
    rfl

end

end ReadBack

end Value
end DevMachines
