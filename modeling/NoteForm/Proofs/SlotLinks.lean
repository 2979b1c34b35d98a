import Mathlib.Order.Bounds.Defs
import NoteForm.SlotLinks
import NoteForm.Proofs.Ascending

/-! A table of links read as a set of pairs of slots. -/
namespace NoteForm

namespace Link

theorem key_injective : Function.Injective key := by
  rintro ⟨old, new⟩ ⟨otherOld, otherNew⟩ hKey
  simpa [key] using hKey

/-- Links are ordered by old slot first. -/
theorem key_lt_iff {first second : Link} : first.key < second.key ↔
    first.old < second.old ∨ first.old = second.old ∧ first.new < second.new := by
  simp [key, List.cons_lt_cons_iff]

end Link

namespace SlotLinks

/-- The old slots that a table links to a new slot. -/
def sources (links : SlotLinks) (new : Slot) : Set Slot := {old | ⟨old, new⟩ ∈ links.links}

/-- Links in their order have ascending old slots. -/
theorem old_le_of_key_lt {first second : Link} (h : first.key < second.key) :
    first.old ≤ second.old := by
  rcases Link.key_lt_iff.1 h with hLt | ⟨hEq, -⟩
  · exact UInt64.le_of_lt hLt
  · exact UInt64.le_of_eq hEq

/-- The first link to a slot has the lowest old slot of all of them. -/
theorem isLeast_sources_of_oldSlot? {links : SlotLinks} {new old : Slot}
    (h : links.oldSlot? new = some old) : IsLeast (links.sources new) old := by
  obtain ⟨link, hFound, rfl⟩ := Option.map_eq_some_iff.1 h
  obtain ⟨hNew, before, after, hSplit, hBefore⟩ := List.find?_eq_some_iff_append.1 hFound
  obtain rfl : link.new = new := by simpa using hNew
  have hAscending : (before ++ link :: after).Pairwise fun a b => a.key < b.key :=
    hSplit ▸ links.ascending
  have hAfter := (List.pairwise_cons.1 (List.pairwise_append.1 hAscending).2.1).1
  constructor
  · exact List.mem_of_find?_eq_some hFound
  · intro other hOther
    change ⟨other, link.new⟩ ∈ links.links at hOther
    rw [hSplit, List.mem_append, List.mem_cons] at hOther
    rcases hOther with hMem | hEq | hMem
    · simpa using hBefore _ hMem
    · exact UInt64.le_of_eq (congrArg Link.old hEq).symm
    · exact old_le_of_key_lt (hAfter _ hMem)

/-- A slot to which anything is linked is fed by something. -/
theorem exists_oldSlot?_of_mem_sources {links : SlotLinks} {new old : Slot}
    (h : old ∈ links.sources new) : ∃ least, links.oldSlot? new = some least ∧ least ≤ old := by
  cases hFound : links.oldSlot? new with
  | some least => exact ⟨least, rfl, (isLeast_sources_of_oldSlot? hFound).2 h⟩
  | none =>
      rw [oldSlot?, Option.map_eq_none_iff, List.find?_eq_none] at hFound
      have hUnlinked := hFound ⟨old, new⟩ h
      simp at hUnlinked

/-- A slot is fed by the lowest of the old slots that are linked to it. -/
theorem oldSlot?_eq_some_iff (links : SlotLinks) (new old : Slot) :
    links.oldSlot? new = some old ↔ IsLeast (links.sources new) old := by
  refine ⟨isLeast_sources_of_oldSlot?, fun h => ?_⟩
  obtain ⟨least, hFound, hLeast⟩ := exists_oldSlot?_of_mem_sources h.1
  rw [hFound, UInt64.le_antisymm hLeast (h.2 (isLeast_sources_of_oldSlot? hFound).1)]

/-- A link from a field of a note with this many fields ends at a position of another form. -/
def Supplies (links : SlotLinks) (oldCount position : Nat) : Prop :=
  ∃ link ∈ links.links, link.new.toNat = position ∧ link.old.toNat < oldCount

instance (links : SlotLinks) (oldCount position : Nat) :
    Decidable (links.Supplies oldCount position) :=
  inferInstanceAs (Decidable (∃ link ∈ links.links, _ ∧ _))

/-- If any link to a slot starts at an old field, the one that counts does: it is the lowest. -/
theorem supplies_iff (links : SlotLinks) (oldCount position : Nat) :
    links.Supplies oldCount position ↔ ∃ slot source : Slot, slot.toNat = position ∧
      links.oldSlot? slot = some source ∧ source.toNat < oldCount := by
  constructor
  · rintro ⟨⟨old, slot⟩, hLink, rfl, hOld⟩
    obtain ⟨least, hFound, hLe⟩ := exists_oldSlot?_of_mem_sources hLink
    exact ⟨slot, least, rfl, hFound,
      Nat.lt_of_le_of_lt (UInt64.le_iff_toNat_le.1 hLe) hOld⟩
  · rintro ⟨slot, source, rfl, hFound, hSource⟩
    exact ⟨⟨source, slot⟩, (isLeast_sources_of_oldSlot? hFound).1, rfl, hSource⟩

/-- Links gathered into a table are all in it, whatever order they came in. -/
@[simp] theorem mem_links_ofList {links : List Link} {link : Link} :
    link ∈ (ofList links).links ↔ link ∈ links := by
  change link ∈ Ascending.putAll Link.key links [] ↔ _
  rw [Ascending.mem_putAll_iff]
  constructor
  · intro hLast
    simpa using List.mem_of_find?_eq_some hLast
  · intro hMem
    cases hFound : links.reverse.find? (·.key = link.key) with
    | some other =>
        have hSame := List.find?_some hFound
        rw [Link.key_injective (by simpa using hSame : other.key = link.key)]
    | none =>
        have hNone := List.find?_eq_none.1 hFound link (by simpa using hMem)
        simp at hNone

@[simp] theorem mem_sources_ofList {links : List Link} {old new : Slot} :
    old ∈ (ofList links).sources new ↔ ⟨old, new⟩ ∈ links :=
  mem_links_ofList

/-- No link is listed twice. -/
theorem nodup_links (table : SlotLinks) : table.links.Nodup :=
  List.Nodup.of_map Link.key table.ascending.nodup_keys

end SlotLinks

namespace SlotMap

/-- A map sends a slot to a target exactly if the two are one of its pairs. -/
theorem get?_eq_some_iff (map : SlotMap) (slot target : Slot) :
    map.get? slot = some target ↔ (slot, target) ∈ map.entries := by
  simp only [get?, Option.map_eq_some_iff,
    Ascending.find?_key_eq_some_iff map.ascending.nodup_keys]
  grind

theorem get?_ofList (pairs : List (Slot × Slot)) (slot : Slot) :
    (ofList pairs).get? slot = (pairs.reverse.find? (·.1 = slot)).map (·.2) := by
  simp [get?, ofList]

/-- The map that sends slots to where a function sends them, if it sends them anywhere. -/
def ofFunction (slots : List Slot) (f : Slot → Option Slot) : SlotMap :=
  ofList (slots.filterMap fun slot => (f slot).map fun target => (slot, target))

/-- The map of a function agrees with it on the slots it was made for. -/
theorem get?_ofFunction {slots : List Slot} {slot : Slot} (h : slot ∈ slots)
    (f : Slot → Option Slot) : (ofFunction slots f).get? slot = f slot := by
  have hPairs (pair : Slot × Slot) : pair ∈ slots.filterMap (fun slot =>
      (f slot).map fun target => (slot, target)) ↔ pair.1 ∈ slots ∧ f pair.1 = some pair.2 := by
    obtain ⟨first, second⟩ := pair
    simp only [List.mem_filterMap, Option.map_eq_some_iff, Prod.mk.injEq]
    grind
  rw [ofFunction, get?_ofList]
  cases hFound : (slots.filterMap _).reverse.find? _ with
  | some pair =>
      have hKey := List.find?_some hFound
      have hMem := List.mem_of_find?_eq_some hFound
      rw [List.mem_reverse, hPairs] at hMem
      rw [decide_eq_true_iff] at hKey
      rw [Option.map_some, ← hKey, hMem.2]
  | none =>
      rw [Option.map_none, eq_comm, Option.eq_none_iff_forall_ne_some]
      intro target hTarget
      have hMissing := List.find?_eq_none.1 hFound (slot, target)
      rw [List.mem_reverse, hPairs] at hMissing
      simpa using hMissing ⟨h, hTarget⟩

end SlotMap

namespace SlotLinks

@[simp] theorem mem_sources_ofNewToOld (map : SlotMap) {old new : Slot} :
    old ∈ (ofNewToOld map).sources new ↔ map.get? new = some old := by
  simp [SlotMap.get?_eq_some_iff, ofNewToOld]

@[simp] theorem mem_sources_ofOldToNew (map : SlotMap) {old new : Slot} :
    old ∈ (ofOldToNew map).sources new ↔ map.get? old = some new := by
  simp [SlotMap.get?_eq_some_iff, ofOldToNew]

/-- In a table made from a map each slot is fed by the one slot it is sent to. -/
@[simp] theorem oldSlot?_ofNewToOld (map : SlotMap) (slot : Slot) :
    (ofNewToOld map).oldSlot? slot = map.get? slot := by
  apply Option.ext
  intro old
  rw [oldSlot?_eq_some_iff, ← mem_sources_ofNewToOld]
  refine ⟨fun h => h.1, fun h => ⟨h, fun other hOther => ?_⟩⟩
  simp only [mem_sources_ofNewToOld] at h hOther
  exact UInt64.le_of_eq (Option.some.inj (h.symm.trans hOther))

/-- In a table made from a map of the old slots, a slot is fed by the lowest of those sent to it. -/
theorem oldSlot?_ofOldToNew_eq_some_iff (map : SlotMap) (old new : Slot) :
    (ofOldToNew map).oldSlot? new = some old ↔
      map.get? old = some new ∧ ∀ lower < old, map.get? lower ≠ some new := by
  rw [oldSlot?_eq_some_iff, IsLeast, mem_sources_ofOldToNew, and_congr_right_iff]
  refine fun _ => ⟨fun hLowest lower hLower hOther => ?_, fun hLowest other hOther => ?_⟩
  · exact UInt64.not_le.2 hLower (hLowest ((mem_sources_ofOldToNew map).2 hOther))
  · exact UInt64.not_lt.1 fun hLower =>
      hLowest other hLower ((mem_sources_ofOldToNew map).1 hOther)

/-- In the table that leaves slots where they are, a slot is linked to itself alone. -/
@[simp] theorem mem_sources_identity {count old new : Slot} :
    old ∈ (identity count).sources new ↔ old = new ∧ new < count := by
  change (⟨old, new⟩ : Link) ∈ identityLinks count ↔ _
  rw [identityLinks, List.mem_map, UInt64.lt_iff_toNat_lt]
  constructor
  · rintro ⟨slot, hSlot, hLink⟩
    obtain ⟨rfl, rfl⟩ := Link.mk.inj hLink
    have hBound := count.toNat_lt
    rw [List.mem_range] at hSlot
    rw [UInt64.toNat_ofNat']
    exact ⟨rfl, by omega⟩
  · rintro ⟨rfl, hSlot⟩
    exact ⟨old.toNat, List.mem_range.2 hSlot, by rw [UInt64.ofNat_toNat]⟩

/-- In the table that leaves slots where they are, each of them is fed by itself. -/
@[simp] theorem oldSlot?_identity {count slot : Slot} (h : slot < count) :
    (identity count).oldSlot? slot = some slot := by
  rw [oldSlot?_eq_some_iff]
  refine ⟨mem_sources_identity.2 ⟨rfl, h⟩, fun other hOther => ?_⟩
  exact UInt64.le_of_eq (mem_sources_identity.1 hOther).1.symm

end SlotLinks
end NoteForm
