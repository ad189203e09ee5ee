import DevMachines.Log.Setup
import DevMachines.Proofs.Settings.Layers
import Mathlib.Tactic.SplitIfs

/-!
# The fields of a record

Setting a field is putting an entry into a layer, and setting several is putting one layer over
another.  So what a record says under a name is known from the laws of layers: what the event says,
and without that what the context says.

Main statement: `lookup_plainRecord`.
-/

namespace DevMachines
namespace Log

open Settings (keys)

namespace Fields

theorem set_eq_put (name : String) (value : Value) (fields : Fields) :
    fields.set name value = Settings.put name value fields := by
  induction fields with
  | nil => rfl
  | cons field fields ih =>
    obtain ⟨n, v⟩ := field
    unfold set Settings.put
    by_cases h : n = name
    · rw [if_pos h, if_pos (beq_iff_eq.mpr h)]
    · rw [if_neg h, if_neg (fun hkey => h (beq_iff_eq.mp hkey)), ih]

theorem setAll_eq_overlay (fields more : Fields) :
    fields.setAll more = Settings.overlay fields more := by
  unfold setAll Settings.overlay
  congr 1
  funext acc field
  exact set_eq_put field.1 field.2 acc

theorem lookup_set (name other : String) (value : Value) (fields : Fields) :
    (fields.set name value).lookup other =
      if other = name then some value else fields.lookup other := by
  rw [set_eq_put]
  split
  · next h => rw [h, Settings.lookup_put_self]
  · next h => rw [Settings.lookup_put_of_ne h]

/-- **A name has the value that was set last.** -/
theorem lookup_setAll (fields : Fields) {more : Fields} (h : (keys more).Nodup) (name : String) :
    (fields.setAll more).lookup name = (more.lookup name).or (fields.lookup name) := by
  rw [setAll_eq_overlay, Settings.lookup_overlay fields h]

theorem nodup_set {fields : Fields} (h : (keys fields).Nodup) (name : String) (value : Value) :
    (keys (fields.set name value)).Nodup := by
  rw [set_eq_put]
  exact Settings.keysDiffer_iff_nodup.mp ((Settings.keysDiffer_iff_nodup.mpr h).put name value)

theorem nodup_setAll {fields : Fields} (h : (keys fields).Nodup) (more : Fields) :
    (keys (fields.setAll more)).Nodup := by
  rw [setAll_eq_overlay]
  exact Settings.keysDiffer_iff_nodup.mp ((Settings.keysDiffer_iff_nodup.mpr h).overlay more)

/-- Leaving fields out by their names takes away the values of these names and of no other. -/
theorem lookup_filter (p : String → Bool) (fields : Fields) (name : String) :
    List.lookup name (fields.filter fun field => p field.1) =
      if p name then fields.lookup name else none := by
  induction fields with
  | nil => rw [List.filter_nil, List.lookup_nil, ite_self]
  | cons field fields ih =>
    obtain ⟨n, v⟩ := field
    rw [List.filter_cons]
    show List.lookup name (if p n then (n, v) :: _ else _) = _
    by_cases hname : name = n
    · subst hname
      split
      · rw [List.lookup_cons, List.lookup_cons, beq_self_eq_true]
      · next hp => rw [ih, if_neg hp]
    · have hother : (name == n) = false := beq_eq_false_iff_ne.mpr hname
      rw [List.lookup_cons, hother, ← ih]
      split
      · rw [List.lookup_cons, hother]
      · rfl

theorem lookup_map (f : Value → Value) (fields : Fields) (name : String) :
    List.lookup name (fields.map fun (n, v) => (n, f v)) = (fields.lookup name).map f := by
  induction fields with
  | nil => rfl
  | cons field fields ih =>
    obtain ⟨n, v⟩ := field
    rw [List.map_cons, List.lookup_cons, List.lookup_cons, ih]
    cases name == n <;> rfl

end Fields

/-! ## Records -/

/-- The record of an event without arguments. -/
def plainRecord (context : Fields) (time : String) (e : Event) : Fields :=
  let fields := context.setAll (e.fields.set "event" (.text e.name))
  let fields := (fields.set "level" (.text e.severity.name)).set "timestamp" (.text time)
  (fields.filter (·.1 != "stack_info")).map fun (n, v) => (n, decodeOctets v)

/-- Arguments that fit change the name of the event and nothing else. -/
theorem recordOf_eq_ok {e : Event} {args : List Value} {name : String}
    (h : interpolate e.name args = .ok name) (context : Fields) (time : String) :
    recordOf context time e args = .ok (plainRecord context time { e with name }) := by
  rw [recordOf, h]
  rfl

variable {e : Event}

/-- **What a record says under a name**: time, severity and event are its own, and under any other
name it says what the fields of the event say, and without them what the context says. -/
theorem lookup_plainRecord (h : (keys e.fields).Nodup) (context : Fields) (time name : String) :
    (plainRecord context time e).lookup name =
      if name = "stack_info" then none
      else if name = "timestamp" then some (.text time)
      else if name = "level" then some (.text e.severity.name)
      else if name = "event" then some (.text e.name)
      else ((e.fields.lookup name).or (context.lookup name)).map decodeOctets := by
  unfold plainRecord
  rw [Fields.lookup_map, Fields.lookup_filter (· != "stack_info"), Fields.lookup_set, Fields.lookup_set,
    Fields.lookup_setAll _ (Fields.nodup_set h _ _), Fields.lookup_set]
  by_cases hstack : name = "stack_info"
  · rw [if_pos hstack, hstack]
    rfl
  · rw [if_neg hstack, if_pos (bne_iff_ne.mpr hstack)]
    split_ifs <;> rfl

/-- A record has each name once. -/
theorem nodup_plainRecord {context : Fields} (h : (keys context).Nodup) (time : String)
    (e : Event) : (keys (plainRecord context time e)).Nodup := by
  have hfields := Fields.nodup_set (Fields.nodup_set
    (Fields.nodup_setAll h (e.fields.set "event" (.text e.name))) "level" (.text e.severity.name))
    "timestamp" (.text time)
  have hkept := hfields.sublist
    ((List.filter_sublist (p := fun field => field.1 != "stack_info")).map Prod.fst)
  have hnames : ∀ fields : Fields,
      keys (fields.map fun (n, v) => (n, decodeOctets v)) = keys fields := by
    intro fields
    rw [keys, keys, List.map_map]
    rfl
  rw [plainRecord, hnames]
  exact hkept

end Log
end DevMachines
