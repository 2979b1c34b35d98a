import NoteForm.Proofs.LinksWithin

/-! What becomes of the values of a note that is moved over a map from old slots to new ones. Slots of
the new form look for the old slots that feed them, and here the same is said from the other end:
which old fields arrive, and that each of them arrives once. -/
namespace NoteForm

namespace SlotMap

/-- The map sends `old` to a slot of a form with `count` slots, and no lower slot to the same one. -/
def Fills (map : SlotMap) (count : Nat) (old new : Slot) : Prop :=
  map.get? old = some new ∧ new.toNat < count ∧ ∀ lower < old, map.get? lower ≠ some new

/-- The field at this position of the old note is the one that fills some slot. -/
def Keeps (map : SlotMap) (count position : Nat) : Prop :=
  ∃ old new : Slot, old.toNat = position ∧ map.Fills count old new

/-- Whether a field is kept can be decided by going through the pairs of the map. -/
theorem keeps_iff_exists_entry (map : SlotMap) (count position : Nat) :
    map.Keeps count position ↔ ∃ entry ∈ map.entries, entry.1.toNat = position ∧
      entry.2.toNat < count ∧ ∀ other ∈ map.entries, other.2 = entry.2 → entry.1 ≤ other.1 := by
  simp only [Keeps, Fills, get?_eq_some_iff, ne_eq]
  constructor
  · rintro ⟨old, new, hOld, hEntry, hNew, hLowest⟩
    refine ⟨(old, new), hEntry, hOld, hNew, ?_⟩
    rintro ⟨other, _⟩ hOther rfl
    exact UInt64.not_lt.1 fun hLower => hLowest other hLower hOther
  · rintro ⟨⟨old, new⟩, hEntry, hOld, hNew, hLowest⟩
    exact ⟨old, new, hOld, hEntry, hNew, fun lower hLower hOther =>
      UInt64.not_le.2 hLower (hLowest (lower, new) hOther rfl)⟩

-- Only the entries are gone through; slots are finitely many as well, but too many to try them all.
instance (map : SlotMap) (count position : Nat) : Decidable (map.Keeps count position) :=
  decidable_of_iff
    (map.entries.any fun entry => entry.1.toNat = position ∧ entry.2.toNat < count ∧
      map.entries.all fun other => other.2 = entry.2 → entry.1 ≤ other.1)
    (by simp only [List.any_eq_true, List.all_eq_true, decide_eq_true_eq, keeps_iff_exists_entry])

end SlotMap

namespace SlotLinks

/-- The position of the old field that feeds a slot, out of a note with this many fields. -/
def feeding? (links : SlotLinks) (count : Nat) (slot : Slot) : Option Nat := do
  let source ← links.oldSlot? slot
  if source.toNat < count then some source.toNat else none

theorem feeding?_eq_some_iff (links : SlotLinks) (count : Nat) (slot : Slot) (source : Nat) :
    links.feeding? count slot = some source ↔
      source < count ∧ ∃ feeding : Slot, feeding.toNat = source ∧
        links.oldSlot? slot = some feeding := by
  simp only [feeding?, Option.bind_eq_bind, Option.bind_eq_some_iff,
    Option.ite_none_right_eq_some, Option.some.injEq]
  grind

/-- What a slot gets is the value at the position that feeds it. -/
theorem valueAt_eq_feeding? (links : SlotLinks) (values : List String) (slot : Slot) :
    links.valueAt values slot =
      ((links.feeding? values.length slot).map fun source => values[source]?.getD "").getD "" := by
  cases hSource : links.oldSlot? slot with
  | none => simp [valueAt_of_unlinked hSource, feeding?, hSource]
  | some source =>
      rw [valueAt_of_oldSlot? hSource, feeding?, hSource, Option.bind_eq_bind, Option.bind_some]
      split
      · rfl
      · rename_i hBehind
        rw [List.getElem?_eq_none (Nat.not_lt.1 hBehind)]
        rfl

end SlotLinks

/-- Leaving out what is empty, it makes no difference whether missing values count as empty. -/
theorem filter_map_getD_empty {α β : Type} (elements : List α) (f : α → Option β)
    (value : β → String) :
    (elements.map fun a => ((f a).map value).getD "").filter (· ≠ "") =
      ((elements.filterMap f).map value).filter (· ≠ "") := by
  induction elements with
  | nil => rfl
  | cons a rest ih =>
      cases hFound : f a with
      | none => simpa [hFound] using ih
      | some b => simp only [List.map_cons, List.filterMap_cons, hFound, List.filter_cons,
          Option.map_some, Option.getD_some, ih]

/-- Elements chosen by their positions, once with and once without the list at hand. -/
theorem map_filter_zipIdx (fields : List NoteField) (chosen : Nat → Prop) [DecidablePred chosen] :
    (fields.zipIdx.filter fun (_, position) => chosen position).map (fun (field, _) => field.value) =
      ((List.range fields.length).filter chosen).map
        fun position => (fields.map (·.value))[position]?.getD "" := by
  rw [List.range_eq_range', ← List.zipIdx_map_snd, List.filter_map, List.map_map]
  refine List.map_congr_left fun pair hPair => ?_
  obtain ⟨field, position⟩ := pair
  have hField := List.mem_zipIdx_iff_getElem?.1 (List.mem_filter.1 hPair).1
  simp [hField]

namespace Move

/-- The positions of the old fields that feed the slots of the new form, in slot order. -/
def fedFrom (move : Move) (count : Nat) : List Nat :=
  (move.target.bySlot.map (·.slot)).filterMap (move.links.feeding? count)

theorem mem_fedFrom_iff (move : Move) (policy : LabelPolicy) (count source : Nat) :
    source ∈ move.fedFrom count ↔ ∃ position, move.Delivers policy count source position := by
  simp only [fedFrom, List.mem_filterMap, FieldIndex.mem_slots_bySlot_iff move.checked,
    SlotLinks.feeding?_eq_some_iff, delivers_iff]
  grind

/-- Apart from empty ones, the values of a moved note are those of the fields that feed a slot. -/
theorem filter_values_fields (move : Move) (policy : LabelPolicy) (old : List NoteField) :
    ((move.fields policy old).map (·.value)).filter (· ≠ "") =
      ((move.fedFrom old.length).map fun position =>
        (old.map (·.value))[position]?.getD "").filter (· ≠ "") := by
  rw [fedFrom, ← filter_map_getD_empty, map_value_fields, List.map_map]
  congr 1
  refine List.map_congr_left fun entry _ => ?_
  rw [SlotLinks.valueAt_eq_feeding?, List.length_map]
  rfl

variable {move : Move} {map : SlotMap}

/-- What a move over a map of the old slots delivers, said by the map. -/
theorem delivers_iff_fills (h : move.links = .ofOldToNew map) (policy : LabelPolicy)
    {count source position : Nat} :
    move.Delivers policy count source position ↔
      source < count ∧ ∃ old new : Slot, old.toNat = source ∧ new.toNat = position ∧
        map.Fills move.target.size old new := by
  simp only [delivers_iff, h, SlotLinks.oldSlot?_ofOldToNew_eq_some_iff, SlotMap.Fills]
  grind

/-- No old field feeds two slots, since the map sends it to one only. -/
theorem nodup_fedFrom (h : move.links = .ofOldToNew map) (count : Nat) :
    (move.fedFrom count).Nodup := by
  have hSlots : (move.target.bySlot.map (·.slot)).Nodup :=
    Ascending.Sorted.nodup_keys move.target.sorted_bySlot
  refine hSlots.filterMap fun first second source hFirst hSecond => ?_
  simp only [Option.mem_def, SlotLinks.feeding?_eq_some_iff, h,
    SlotLinks.oldSlot?_ofOldToNew_eq_some_iff] at hFirst hSecond
  obtain ⟨-, old, rfl, hFirst, -⟩ := hFirst
  obtain ⟨-, other, hSame, hSecond, -⟩ := hSecond
  obtain rfl : other = old := UInt64.toNat_inj.1 hSame
  exact Option.some.inj (hFirst.symm.trans hSecond)

/-- A note is moved over a map from old slots to new ones. The values of the new note that are not
empty are then those of the old fields that the map sends to a slot of the new form and that lie
lowest among the fields sent there, each as often as there. Such a field is delivered to the slot it
is sent to and to no other position, and no other field is delivered anywhere. -/
theorem values_conserved (h : move.links = .ofOldToNew map) (policy : LabelPolicy)
    (old : List NoteField) :
    (((move.fields policy old).map (·.value)).filter (· ≠ "")).Perm
      (((old.zipIdx.filter fun (_, position) => map.Keeps move.target.size position).map
        fun (field, _) => field.value).filter (· ≠ "")) ∧
    ∀ source position, move.Delivers policy old.length source position ↔
      source < old.length ∧ ∃ oldSlot newSlot : Slot, oldSlot.toNat = source ∧
        newSlot.toNat = position ∧ map.Fills move.target.size oldSlot newSlot := by
  refine ⟨?_, fun source position => delivers_iff_fills h policy⟩
  have hArriving : (move.fedFrom old.length).Perm
      ((List.range old.length).filter fun position => map.Keeps move.target.size position) := by
    refine (List.perm_ext_iff_of_nodup (nodup_fedFrom h _) (List.nodup_range.filter _)).2
      fun source => ?_
    simp only [move.mem_fedFrom_iff policy, delivers_iff_fills h, List.mem_filter,
      List.mem_range, SlotMap.Keeps]
    grind
  rw [filter_values_fields, map_filter_zipIdx]
  exact (hArriving.map _).filter _

/-- Two old slots compete for slot 1, one goes to a slot that is not there, and slot 2 would take from
a field that is not there. -/
def scattered : SlotMap := .ofList [(2, 0), (0, 1), (1, 1), (3, 7), (5, 2)]

def scatter : Move := { partlyDangling with links := .ofOldToNew scattered }

theorem values_conserved_scattered :
    let old : List NoteField := [⟨"A", "a"⟩, ⟨"B", "b"⟩, ⟨"C", "c"⟩, ⟨"D", "d"⟩]
    scatter.links = .ofOldToNew scattered ∧
      (((scatter.fields .standard old).map (·.value)).filter (· ≠ "")).Perm ["a", "c"] ∧
      scatter.Delivers .standard 4 0 1 ∧ ∀ position, ¬ scatter.Delivers .standard 4 1 position := by
  intro old
  have hLinks : scatter.links = .ofOldToNew scattered := rfl
  obtain ⟨hValues, hDelivers⟩ := values_conserved hLinks .standard old
  have hKept : ((old.zipIdx.filter fun (_, position) =>
      scattered.Keeps scatter.target.size position).map fun (field, _) => field.value).filter
        (· ≠ "") = ["a", "c"] := by decide
  have hFirst : scattered.get? 0 = some 1 := by decide
  have hSecond : scattered.get? 1 = some 1 := by decide
  have hSize : scatter.target.size = 3 := by decide
  refine ⟨hLinks, hKept ▸ hValues,
    (hDelivers 0 1).2 ⟨by decide, 0, 1, rfl, rfl, hFirst, ?_, ?_⟩, ?_⟩
  · rw [hSize]
    decide
  · exact fun lower hLower => absurd hLower (UInt64.not_lt.2 UInt64.zero_le)
  · intro position hDelivered
    obtain ⟨-, oldSlot, newSlot, hOld, -, hSent, -, hLowest⟩ := (hDelivers 1 position).1 hDelivered
    obtain rfl : oldSlot = 1 := UInt64.toNat_inj.1 hOld
    obtain rfl : (1 : Slot) = newSlot := Option.some.inj (hSecond.symm.trans hSent)
    exact hLowest 0 (by decide) hFirst

end Move
end NoteForm
