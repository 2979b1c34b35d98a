import Mathlib.Data.List.Perm.Subperm
import NoteForm.FieldIndex
import NoteForm.Proofs.Ascending

/-! What the check of an index guarantees, whatever order its entries stand in: the slots in use
are exactly the numbers below the number of entries, each taken once. -/
namespace NoteForm.FieldIndex

/-- Entries of different names lie in different slots, in range or not. -/
def SlotsApart (index : FieldIndex) : Prop :=
  ∀ first ∈ index.entries, ∀ second ∈ index.entries,
    first.slot = second.slot → first.name = second.name

instance (index : FieldIndex) : Decidable index.SlotsApart :=
  inferInstanceAs (Decidable (∀ first ∈ index.entries, ∀ second ∈ index.entries,
    first.slot = second.slot → first.name = second.name))

/-- Since no name stands twice in an index, no slot does where names have slots of their own. -/
theorem SlotsApart.nodup_slots {index : FieldIndex} (h : index.SlotsApart) :
    (index.entries.map (·.slot)).Nodup := by
  refine List.Nodup.map_on (fun first hFirst second hSecond hSlot => ?_)
    (index.distinct.of_map (·.name))
  exact List.inj_on_of_nodup_map index.distinct hFirst hSecond (h first hFirst second hSecond hSlot)

theorem sorted_bySlot (index : FieldIndex) :
    Ascending.Sorted (fun entry : FieldDefinition => entry.slot) index.bySlot :=
  Ascending.sorted_putAll_nil _ index.entries

/-- In slot order the same entries stand, each once. -/
theorem bySlot_perm {index : FieldIndex} (h : (index.entries.map (·.slot)).Nodup) :
    index.bySlot.Perm index.entries :=
  Ascending.putAll_perm h

/-- The check of the entries passes exactly if their slots are in range, differ from each other and
from those taken before. -/
theorem checkSlots_eq_ok_iff (count : Nat) (taken : List Slot) (entries : List FieldDefinition) :
    checkSlots count taken entries = .ok () ↔
      (∀ entry ∈ entries, entry.slot.toNat < count ∧ entry.slot ∉ taken) ∧
        (entries.map (·.slot)).Nodup := by
  induction entries generalizing taken with
  | nil => simp [checkSlots]
  | cons entry rest ih =>
      rw [checkSlots]
      split
      · rename_i hRange
        simp only [reduceCtorEq, false_iff, not_and]
        intro h
        have hEntry := (h entry List.mem_cons_self).1
        omega
      · rename_i hRange
        split
        · rename_i hTaken
          simp only [reduceCtorEq, false_iff, not_and]
          intro h
          exact absurd hTaken (h entry List.mem_cons_self).2
        · rename_i hFree
          rw [ih, List.map_cons, List.nodup_cons, List.forall_mem_cons, List.mem_map]
          simp only [List.mem_cons, not_or]
          -- To the rest the slot of this entry is one that was taken before.
          constructor
          · rintro ⟨hRest, hNodup⟩
            refine ⟨⟨⟨by omega, hFree⟩, fun other hOther => ?_⟩, ?_, hNodup⟩
            · obtain ⟨hOtherRange, -, hOtherFree⟩ := hRest other hOther
              exact ⟨hOtherRange, hOtherFree⟩
            · rintro ⟨other, hOther, hSame⟩
              exact (hRest other hOther).2.1 hSame
          · rintro ⟨⟨-, hRest⟩, hHead, hNodup⟩
            refine ⟨fun other hOther => ?_, hNodup⟩
            obtain ⟨hOtherRange, hOtherFree⟩ := hRest other hOther
            exact ⟨hOtherRange, fun hSame => hHead ⟨other, hOther, hSame⟩, hOtherFree⟩

/-- The check passes exactly if every definition has an entry, and the slots are in range and
differ. -/
theorem check_eq_ok_iff (index : FieldIndex) :
    index.check = .ok () ↔ index.declared = index.size ∧
      (∀ entry ∈ index.entries, entry.slot.toNat < index.size) ∧
        (index.entries.map (·.slot)).Nodup := by
  rw [check]
  split
  · rename_i hDeclared
    simp [hDeclared]
  · rename_i hDeclared
    rw [checkSlots_eq_ok_iff]
    simp [not_not.1 hDeclared]

/-- Ascending numbers below their count leave none of them out. -/
theorem eq_range_of_ascending {numbers : List Nat} (hAscending : numbers.Pairwise (· < ·))
    (hBound : ∀ n ∈ numbers, n < numbers.length) : numbers = List.range numbers.length := by
  have hNodup : numbers.Nodup := hAscending.imp Nat.ne_of_lt
  have hSubset : numbers ⊆ List.range numbers.length := fun n hMem => by
    simpa using hBound n hMem
  have hPerm : numbers.Perm (List.range numbers.length) :=
    (hNodup.subperm hSubset).perm_of_length_le (by simp)
  exact hPerm.eq_of_pairwise (fun _ _ _ _ hLt hGt => absurd hLt (Nat.lt_asymm hGt))
    hAscending List.pairwise_lt_range

theorem length_bySlot_of_check {index : FieldIndex} (h : index.check = .ok ()) :
    index.bySlot.length = index.size :=
  (bySlot_perm (index.check_eq_ok_iff.1 h).2.2).length_eq

/-- The entries of a checked index, taken in slot order, fill the form without a gap. -/
theorem slots_bySlot_of_check {index : FieldIndex} (h : index.check = .ok ()) :
    index.bySlot.map (·.slot.toNat) = List.range index.size := by
  obtain ⟨-, hRange, hNodup⟩ := index.check_eq_ok_iff.1 h
  have hPerm := bySlot_perm hNodup
  have hLength : (index.bySlot.map (·.slot.toNat)).length = index.size := by
    rw [List.length_map, length_bySlot_of_check h]
  rw [← hLength]
  apply eq_range_of_ascending
  · rw [List.pairwise_map]
    exact index.sorted_bySlot.imp fun hLt => UInt64.lt_iff_toNat_lt.1 hLt
  · intro slot hMem
    obtain ⟨entry, hEntry, rfl⟩ := List.mem_map.1 hMem
    rw [hLength]
    exact hRange entry (hPerm.mem_iff.1 hEntry)

theorem slot_lt_of_mem_bySlot {index : FieldIndex} (h : index.check = .ok ())
    {entry : FieldDefinition} (hEntry : entry ∈ index.bySlot) : entry.slot.toNat < index.size := by
  rw [← List.mem_range, ← slots_bySlot_of_check h]
  exact List.mem_map_of_mem hEntry

/-- The slots of a checked form are the numbers below its size. -/
theorem mem_slots_bySlot_iff {index : FieldIndex} (h : index.check = .ok ()) (slot : Slot) :
    slot ∈ index.bySlot.map (·.slot) ↔ slot.toNat < index.size := by
  rw [← List.mem_range, ← slots_bySlot_of_check h]
  simp [UInt64.toNat_inj]

/-- In slot order each entry of a checked index stands at the position of its slot. -/
theorem getElem?_bySlot_of_check {index : FieldIndex} (h : index.check = .ok ())
    {entry : FieldDefinition} (hEntry : entry ∈ index.entries) :
    index.bySlot[entry.slot.toNat]? = some entry := by
  obtain ⟨-, hRange, hNodup⟩ := index.check_eq_ok_iff.1 h
  have hListed : entry ∈ index.bySlot := (bySlot_perm hNodup).mem_iff.2 hEntry
  obtain ⟨position, hPosition, hAt⟩ := List.mem_iff_getElem.1 hListed
  have hSlot := congrArg (·[position]?) (slots_bySlot_of_check h)
  have hInside : position < index.size := by rwa [length_bySlot_of_check h] at hPosition
  simp only [List.getElem?_map, List.getElem?_range hInside, List.getElem?_eq_getElem hPosition,
    hAt, Option.map_some, Option.some.injEq] at hSlot
  rw [hSlot, List.getElem?_eq_getElem hPosition, hAt]

/-- A definition under a new name goes to the end. -/
theorem enter_of_not_mem {definition : FieldDefinition} {entries : List FieldDefinition}
    (h : definition.name ∉ entries.map (·.name)) :
    enter definition entries = entries ++ [definition] := by
  induction entries with
  | nil => rfl
  | cons held rest ih =>
      rw [List.map_cons, List.mem_cons, not_or] at h
      rw [enter, if_neg (Ne.symm h.1), ih h.2, List.cons_append]

/-- A definition under a name that is there takes the place of the one that has it. -/
theorem length_enter_of_mem {definition : FieldDefinition} {entries : List FieldDefinition}
    (h : definition.name ∈ entries.map (·.name)) :
    (enter definition entries).length = entries.length := by
  induction entries with
  | nil => simp at h
  | cons held rest ih =>
      rw [enter]
      split
      · rfl
      · rename_i hOther
        rw [List.map_cons, List.mem_cons] at h
        have hRest := h.resolve_left (Ne.symm hOther)
        rw [List.length_cons, ih hRest, List.length_cons]

/-- Entering definitions adds at most one entry for each of them. -/
theorem length_foldl_enter_le (definitions entries : List FieldDefinition) :
    (definitions.foldl (fun held definition => enter definition held) entries).length ≤
      entries.length + definitions.length := by
  induction definitions generalizing entries with
  | nil => simp
  | cons definition rest ih =>
      have hRest := ih (enter definition entries)
      have hEnter : (enter definition entries).length ≤ entries.length + 1 := by
        by_cases hMem : definition.name ∈ entries.map (·.name)
        · rw [length_enter_of_mem hMem]
          omega
        · simp [enter_of_not_mem hMem]
      rw [List.foldl_cons, List.length_cons]
      omega

/-- If entering definitions adds an entry for each of them, none has replaced another. -/
theorem foldl_enter_of_length {definitions entries : List FieldDefinition}
    (h : (definitions.foldl (fun held definition => enter definition held) entries).length =
      entries.length + definitions.length) :
    definitions.foldl (fun held definition => enter definition held) entries =
      entries ++ definitions := by
  induction definitions generalizing entries with
  | nil => simp
  | cons definition rest ih =>
      rw [List.foldl_cons, List.length_cons] at h
      have hNew : definition.name ∉ entries.map (·.name) := by
        intro hMem
        have hRest := length_foldl_enter_le rest (enter definition entries)
        rw [length_enter_of_mem hMem] at hRest
        omega
      rw [enter_of_not_mem hNew] at h
      rw [List.foldl_cons, enter_of_not_mem hNew, ih (by rw [h, List.length_append]; simp; omega),
        List.append_assoc, List.singleton_append]

/-- Entering a definition changes what is found under its name and under no other. -/
@[simp] theorem find?_enter (definition : FieldDefinition) (entries : List FieldDefinition)
    (name : String) :
    (enter definition entries).find? (·.name = name) =
      if definition.name = name then some definition else entries.find? (·.name = name) := by
  induction entries with
  | nil => by_cases hName : definition.name = name <;> simp [enter, hName]
  | cons held rest ih =>
      rw [enter]
      split
      · rename_i hSame
        by_cases hName : definition.name = name <;> simp [hSame, hName]
      · rename_i hOther
        rw [List.find?_cons, List.find?_cons, ih]
        by_cases hName : definition.name = name
        · have hApart : held.name ≠ name := fun hHeld => hOther (hHeld.trans hName.symm)
          simp [hName, hApart]
        · simp [hName]

@[simp] theorem find?_foldl_enter (definitions entries : List FieldDefinition) (name : String) :
    (definitions.foldl (fun held definition => enter definition held) entries).find?
        (·.name = name) =
      (definitions.reverse.find? (·.name = name)).or (entries.find? (·.name = name)) := by
  induction definitions generalizing entries with
  | nil => simp
  | cons definition rest ih =>
      by_cases hName : definition.name = name <;> simp [ih, hName]

/-- Under a name the index of a note type has the last definition of that name. -/
theorem find?_index (t : NoteType) (name : String) :
    t.index.find? name = t.fields.reverse.find? (·.name = name) := by
  simp [find?, NoteType.index, enterAll]

/-- If there are as many entries as definitions, the index has the definitions of the note type. -/
theorem entries_index_of_size {t : NoteType} (h : t.fields.length = t.index.size) :
    t.index.entries = t.fields := by
  have hLength :
      (enterAll t.fields).length = ([] : List FieldDefinition).length + t.fields.length := by
    rw [List.length_nil, Nat.zero_add]
    exact h.symm
  exact foldl_enter_of_length hLength

/-- The index of a note type that passes the check has the definitions of the note type. -/
theorem entries_index_of_check {t : NoteType} (h : t.index.check = .ok ()) :
    t.index.entries = t.fields :=
  entries_index_of_size (t.index.check_eq_ok_iff.1 h).1

end NoteForm.FieldIndex
