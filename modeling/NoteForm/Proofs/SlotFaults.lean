import Mathlib.Data.Finset.Card
import NoteForm.Proofs.Acceptance

/-! What the check of an index reports about a note type. The entries stand in no particular order
and the check stops at the first fault it meets, so which fault is reported may depend on the order.
That there is one does not, and the one that is reported is real. -/
namespace NoteForm

namespace NoteType

/-- The definition stands in a slot that a form with one slot for each different name lacks. -/
def OutOfRange (t : NoteType) (definition : FieldDefinition) : Prop :=
  definition ∈ t.fields ∧ t.distinctNames ≤ definition.slot.toNat

/-- The definition stands in a slot that exists and that another definition stands in as well. -/
def SharesSlot (t : NoteType) (definition : FieldDefinition) : Prop :=
  definition ∈ t.fields ∧ definition.slot.toNat < t.distinctNames ∧
    ∃ other ∈ t.fields, other ≠ definition ∧ other.slot = definition.slot

instance (t : NoteType) (definition : FieldDefinition) : Decidable (t.OutOfRange definition) :=
  inferInstanceAs (Decidable (_ ∧ _))

instance (t : NoteType) (definition : FieldDefinition) : Decidable (t.SharesSlot definition) :=
  inferInstanceAs (Decidable (_ ∧ _ ∧ ∃ other ∈ t.fields, _))

end NoteType

/-- A fault that the note type has: names are repeated, or else the definition named stands in a slot
that is out of range or shared. -/
inductive SlotFault.RealIn (t : NoteType) : SlotFault → Prop where
  | repeatedNames (hNames : t.fields.length ≠ t.distinctNames) :
      RealIn t (.repeatedNames t.fields.length t.distinctNames)
  | outOfRange {definition : FieldDefinition} (hNames : t.fields.length = t.distinctNames)
      (hOut : t.OutOfRange definition) :
      RealIn t (.outOfRange definition.name definition.slot t.distinctNames)
  | reused {definition : FieldDefinition} (hNames : t.fields.length = t.distinctNames)
      (hShares : t.SharesSlot definition) : RealIn t (.reused definition.name definition.slot)

namespace FieldIndex

/-- The check of the entries stops at one whose slot is out of range, or was taken to begin with or by
an entry before it. -/
theorem exists_of_checkSlots_eq_error {count : Nat} {taken : List Slot}
    {entries : List FieldDefinition} {fault : SlotFault}
    (h : checkSlots count taken entries = .error fault) :
    ∃ before entry after, entries = before ++ entry :: after ∧
      (count ≤ entry.slot.toNat ∧ fault = .outOfRange entry.name entry.slot count ∨
        entry.slot.toNat < count ∧ (entry.slot ∈ taken ∨ entry.slot ∈ before.map (·.slot)) ∧
          fault = .reused entry.name entry.slot) := by
  induction entries generalizing taken with
  | nil => cases h
  | cons entry rest ih =>
      rw [checkSlots] at h
      split at h
      · rename_i hRange
        cases h
        exact ⟨[], entry, rest, rfl, .inl ⟨hRange, rfl⟩⟩
      · rename_i hRange
        split at h
        · rename_i hTaken
          cases h
          exact ⟨[], entry, rest, rfl, .inr ⟨by omega, .inl hTaken, rfl⟩⟩
        · obtain ⟨before, found, after, rfl, hFault⟩ := ih h
          refine ⟨entry :: before, found, after, rfl, ?_⟩
          rcases hFault with hOut | ⟨hInside, hTaken, hFault⟩
          · exact .inl hOut
          · refine .inr ⟨hInside, ?_, hFault⟩
            simp only [List.mem_cons, List.map_cons] at hTaken ⊢
            grind

namespace IsIndexOf

variable {index : FieldIndex} {t : NoteType}

theorem check_of_repeatedNames (h : index.IsIndexOf t) (hNames : t.fields.length ≠ t.distinctNames) :
    index.check = .error (.repeatedNames t.fields.length t.distinctNames) := by
  have hDeclared : index.declared = t.fields.length := h.declared_eq
  rw [check, hDeclared, h.size_eq, if_pos hNames]

/-- Whatever the check reports is a fault of the note type. -/
theorem realIn_of_check (h : index.IsIndexOf t) {fault : SlotFault}
    (hFault : index.check = .error fault) : fault.RealIn t := by
  by_cases hNames : t.fields.length = t.distinctNames
  · have hDeclared : index.declared = t.fields.length := h.declared_eq
    have hFields := h.perm_fields hNames
    rw [check, hDeclared, h.size_eq, if_neg (not_not.2 hNames)] at hFault
    obtain ⟨before, entry, after, hSplit, hEntry⟩ := exists_of_checkSlots_eq_error hFault
    have hDefined : entry ∈ t.fields := hFields.mem_iff.1 (by simp [hSplit])
    rcases hEntry with ⟨hOut, rfl⟩ | ⟨hInside, hTaken, rfl⟩
    · exact .outOfRange hNames ⟨hDefined, hOut⟩
    · obtain ⟨other, hOther, hSame⟩ := List.mem_map.1 (hTaken.resolve_left List.not_mem_nil)
      have hListed : other ∈ index.entries := hSplit ▸ List.mem_append_left _ hOther
      -- No entry stands in the list twice, so the earlier one is another one.
      have hEntries : index.entries.Nodup := index.distinct.of_map _
      rw [hSplit] at hEntries
      have hApart := (List.nodup_append.1 hEntries).2.2 other hOther entry List.mem_cons_self
      exact .reused hNames ⟨hDefined, hInside, other, hFields.mem_iff.1 hListed, hApart, hSame⟩
  · rw [h.check_of_repeatedNames hNames] at hFault
    cases hFault
    exact .repeatedNames hNames

/-- Something is reported about each note type that is not well-formed. -/
theorem exists_fault_of_not_wellFormed (h : index.IsIndexOf t) (hFaulty : ¬ t.WellFormed) :
    ∃ fault, index.check = .error fault := by
  cases hCheck : index.check with
  | ok _ => exact absurd (h.check_eq_ok_iff.1 hCheck) hFaulty
  | error fault => exact ⟨fault, rfl⟩

end IsIndexOf
end FieldIndex

namespace NoteType

variable {t : NoteType}

/-- Each slot of a well-formed note type is below the number of definitions. -/
theorem WellFormed.not_outOfRange (h : t.WellFormed) (definition : FieldDefinition) :
    ¬ t.OutOfRange definition := by
  rintro ⟨hDefined, hOut⟩
  have hSlot := List.mem_map_of_mem (f := fun d : FieldDefinition => d.slot.toNat) hDefined
  rw [h.slots.mem_iff, List.mem_range, t.length_eq_distinctNames_iff.2 h.names] at hSlot
  omega

theorem WellFormed.not_sharesSlot (h : t.WellFormed) (definition : FieldDefinition) :
    ¬ t.SharesSlot definition := by
  rintro ⟨hDefined, -, other, hOther, hApart, hSame⟩
  have hNodup : (t.fields.map (·.slot.toNat)).Nodup := h.slots.nodup_iff.2 List.nodup_range
  exact hApart (List.inj_on_of_nodup_map hNodup hOther hDefined (congrArg UInt64.toNat hSame))

end NoteType

namespace FieldIndex

/-- A slot is counted more than once if two entries stand in it. -/
theorem one_lt_countP_iff {entries : List FieldDefinition} (h : entries.Nodup) {slot : Slot} :
    1 < entries.countP (·.slot = slot) ↔
      ∃ entry ∈ entries, entry.slot = slot ∧ ∃ other ∈ entries, other ≠ entry ∧ other.slot = slot := by
  rw [List.countP_eq_length_filter, ← List.toFinset_card_of_nodup (h.filter _), Finset.one_lt_card]
  simp only [List.mem_toFinset, List.mem_filter, decide_eq_true_iff]
  grind

namespace IsIndexOf

variable {index : FieldIndex} {t : NoteType} (h : index.IsIndexOf t)
  (hNames : t.fields.length = t.distinctNames)

include h hNames

/-- The entries out of range are the definitions whose slot does not exist. -/
theorem mem_outOfRange_iff {definition : FieldDefinition} :
    definition ∈ index.outOfRange ↔ t.OutOfRange definition := by
  rw [outOfRange, List.mem_filter, decide_eq_true_iff, (h.perm_fields hNames).mem_iff, h.size_eq]
  rfl

/-- The shared slots are those that two definitions stand in. -/
theorem mem_sharedSlots_iff {slot : Slot} :
    slot ∈ index.sharedSlots ↔ ∃ definition, t.SharesSlot definition ∧ definition.slot = slot := by
  have hFields := h.perm_fields hNames
  rw [sharedSlots, List.mem_filter, decide_eq_true_iff, bySlot, Ascending.mem_keys_putAll_iff,
    one_lt_countP_iff (index.distinct.of_map _), h.size_eq]
  simp only [hFields.mem_iff]
  constructor
  · rintro ⟨-, hInside, definition, hDefined, rfl, hOther⟩
    exact ⟨definition, ⟨hDefined, hInside, hOther⟩, rfl⟩
  · rintro ⟨definition, ⟨hDefined, hInside, hOther⟩, rfl⟩
    exact ⟨List.mem_map_of_mem (hFields.mem_iff.2 hDefined), hInside, definition, hDefined, rfl,
      hOther⟩

/-- A single definition out of range is reported if no slot is shared. -/
theorem check_of_outOfRange {definition : FieldDefinition}
    (hOnly : ∀ other, t.OutOfRange other ↔ other = definition)
    (hUnshared : ∀ other, ¬ t.SharesSlot other) :
    index.check = .error (.outOfRange definition.name definition.slot t.distinctNames) := by
  have hFaulty : ¬ t.WellFormed := fun hWell =>
    hWell.not_outOfRange definition ((hOnly definition).2 rfl)
  obtain ⟨fault, hFault⟩ := h.exists_fault_of_not_wellFormed hFaulty
  cases h.realIn_of_check hFault with
  | repeatedNames hRepeated => exact absurd hNames hRepeated
  | @outOfRange found _ hOut =>
      obtain rfl := (hOnly found).1 hOut
      exact hFault
  | @reused found _ hShares => exact absurd hShares (hUnshared found)

/-- A single shared slot is reported if no definition is out of range, with one of the definitions
that stand in it. -/
theorem check_of_sharedSlot {slot : Slot} (hInside : ∀ other, ¬ t.OutOfRange other)
    (hSharing : ∃ definition, t.SharesSlot definition ∧ definition.slot = slot)
    (hOnly : ∀ other, t.SharesSlot other → other.slot = slot) :
    ∃ definition, t.SharesSlot definition ∧ definition.slot = slot ∧
      index.check = .error (.reused definition.name slot) := by
  obtain ⟨sharing, hSharing, -⟩ := hSharing
  have hFaulty : ¬ t.WellFormed := fun hWell => hWell.not_sharesSlot sharing hSharing
  obtain ⟨fault, hFault⟩ := h.exists_fault_of_not_wellFormed hFaulty
  cases h.realIn_of_check hFault with
  | repeatedNames hRepeated => exact absurd hNames hRepeated
  | @outOfRange found _ hOut => exact absurd hOut (hInside found)
  | @reused found _ hShares =>
      obtain rfl := hOnly found hShares
      exact ⟨found, hShares, rfl, hFault⟩

/-- Which fault is reported does not depend on the order if only one entry is out of range and no slot
is shared, or only one slot is shared and no entry is out of range. -/
theorem check_of_single_fault :
    (∀ entry, index.outOfRange = [entry] → index.sharedSlots = [] →
      index.check = .error (.outOfRange entry.name entry.slot index.size)) ∧
    ∀ slot, index.outOfRange = [] → index.sharedSlots = [slot] →
      ∃ entry ∈ index.entries, entry.slot = slot ∧
        index.check = .error (.reused entry.name slot) := by
  constructor
  · intro entry hOut hShared
    rw [h.size_eq]
    apply h.check_of_outOfRange hNames
    · intro other
      rw [← h.mem_outOfRange_iff hNames, hOut, List.mem_singleton]
    · intro other hShares
      have hSlot := (h.mem_sharedSlots_iff hNames).2 ⟨other, hShares, rfl⟩
      rw [hShared] at hSlot
      cases hSlot
  · intro slot hOut hShared
    have hInside : ∀ other, ¬ t.OutOfRange other := by
      intro other hOther
      have hListed := (h.mem_outOfRange_iff hNames).2 hOther
      rw [hOut] at hListed
      cases hListed
    obtain ⟨entry, hShares, hSlot, hCheck⟩ := h.check_of_sharedSlot hNames hInside
      ((h.mem_sharedSlots_iff hNames).1 (hShared ▸ List.mem_singleton_self slot)) fun other hOther =>
        List.mem_singleton.1 (hShared ▸ (h.mem_sharedSlots_iff hNames).2 ⟨other, hOther, rfl⟩)
    exact ⟨entry, (h.perm_fields hNames).mem_iff.2 hShares.1, hSlot, hCheck⟩

end IsIndexOf
end FieldIndex

namespace NoteType

/-- In whatever order the entries of an index stand, what the check reports is a fault of the note
type. Repeated names are reported before anything else. A single definition out of range is reported
if no slot is shared, and a single shared slot is reported if no definition is out of range. Whether
the check passes does not depend on the order. -/
theorem reported_fault_is_real (t : NoteType) {index : FieldIndex} (h : index.IsIndexOf t) :
    (∀ fault, index.check = .error fault → fault.RealIn t) ∧
    (t.fields.length ≠ t.distinctNames →
      index.check = .error (.repeatedNames t.fields.length t.distinctNames)) ∧
    (t.fields.length = t.distinctNames → ∀ definition,
      (∀ other, t.OutOfRange other ↔ other = definition) → (∀ other, ¬ t.SharesSlot other) →
        index.check = .error (.outOfRange definition.name definition.slot t.distinctNames)) ∧
    (t.fields.length = t.distinctNames → ∀ slot, (∀ other, ¬ t.OutOfRange other) →
      (∃ definition, t.SharesSlot definition ∧ definition.slot = slot) →
      (∀ other, t.SharesSlot other → other.slot = slot) →
        ∃ definition, t.SharesSlot definition ∧ definition.slot = slot ∧
          index.check = .error (.reused definition.name slot)) ∧
    (∀ other : FieldIndex, other.IsIndexOf t → (index.check = .ok () ↔ other.check = .ok ())) := by
  refine ⟨fun fault => h.realIn_of_check, h.check_of_repeatedNames, ?_, ?_, fun other hOther => ?_⟩
  · intro hNames definition hOnly hUnshared
    exact h.check_of_outOfRange hNames hOnly hUnshared
  · intro hNames slot hInside hSharing hOnly
    exact h.check_of_sharedSlot hNames hInside hSharing hOnly
  · rw [h.check_eq_ok_iff, hOther.check_eq_ok_iff]

/-- Two of the three definitions stand in the same slot. -/
def crowded : NoteType :=
  ⟨0, "Crowded", [⟨"Front", 1, false⟩, ⟨"Extra", 0, false⟩, ⟨"Back", 1, false⟩]⟩

theorem reported_fault_is_real_crowded :
    let index : FieldIndex :=
      ⟨[⟨"Back", 1, false⟩, ⟨"Front", 1, false⟩, ⟨"Extra", 0, false⟩], 3, by decide⟩
    index.IsIndexOf crowded ∧ crowded.fields.length = crowded.distinctNames ∧
      (∀ other, ¬ crowded.OutOfRange other) ∧
      (∀ other, crowded.SharesSlot other → other.slot = 1) ∧
      ∃ definition, crowded.SharesSlot definition ∧
        index.check = .error (.reused definition.name 1) := by
  intro index
  have hIndex : index.IsIndexOf crowded := by decide
  have hNames : crowded.fields.length = crowded.distinctNames := by decide
  have hInside : ∀ other, ¬ crowded.OutOfRange other := by
    have hSlots : ∀ other ∈ crowded.fields, ¬ crowded.OutOfRange other := by decide
    exact fun other hOut => hSlots other hOut.1 hOut
  have hOnly : ∀ other, crowded.SharesSlot other → other.slot = 1 := by
    have hSlots : ∀ other ∈ crowded.fields, crowded.SharesSlot other → other.slot = 1 := by decide
    exact fun other hShares => hSlots other hShares.1 hShares
  have hSharing : ∃ definition, crowded.SharesSlot definition ∧ definition.slot = 1 :=
    ⟨⟨"Back", 1, false⟩, by decide⟩
  obtain ⟨-, -, -, hShared, -⟩ := reported_fault_is_real crowded hIndex
  obtain ⟨definition, hShares, -, hCheck⟩ := hShared hNames 1 hInside hSharing hOnly
  exact ⟨hIndex, hNames, hInside, hOnly, definition, hShares, hCheck⟩

end NoteType
end NoteForm
