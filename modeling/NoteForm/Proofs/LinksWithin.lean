import NoteForm.Proofs.Delivery

/-! Only the links between slots that both forms have matter to a move. A slot is fed by the lowest
link there is before anybody asks whether that one starts inside the old note, and nothing is lost by
that: if the lowest link starts behind the last old field, they all do. -/
namespace NoteForm

namespace SlotLinks

/-- The links that start at a field of a note with `oldCount` fields and end in a form with
`newCount` slots. -/
def within (links : SlotLinks) (oldCount newCount : Nat) : SlotLinks where
  links := links.links.filter fun link => link.old.toNat < oldCount ∧ link.new.toNat < newCount
  ascending := links.ascending.filter _

/-- Two tables have the same links within these bounds. -/
def AgreeWithin (first second : SlotLinks) (oldCount newCount : Nat) : Prop :=
  ∀ link : Link, link.old.toNat < oldCount → link.new.toNat < newCount →
    (link ∈ first.links ↔ link ∈ second.links)

theorem agreeWithin_within (links : SlotLinks) (oldCount newCount : Nat) :
    (links.within oldCount newCount).AgreeWithin links oldCount newCount := by
  intro link hOld hNew
  simp [within, hOld, hNew]

namespace AgreeWithin

variable {first second : SlotLinks} {oldCount newCount : Nat}

theorem symm (h : first.AgreeWithin second oldCount newCount) :
    second.AgreeWithin first oldCount newCount :=
  fun link hOld hNew => (h link hOld hNew).symm

/-- The lowest source of a slot, if it is within bounds, is the lowest in the other table too: all that
could come before it is within bounds as well. -/
theorem isLeast (h : first.AgreeWithin second oldCount newCount) {slot source : Slot}
    (hSlot : slot.toNat < newCount) (hSource : source.toNat < oldCount)
    (hLeast : IsLeast (first.sources slot) source) : IsLeast (second.sources slot) source := by
  refine ⟨(h ⟨source, slot⟩ hSource hSlot).1 hLeast.1, fun other hOther => ?_⟩
  by_cases hInside : other.toNat < oldCount
  · exact hLeast.2 ((h ⟨other, slot⟩ hInside hSlot).2 hOther)
  · rw [UInt64.le_iff_toNat_le]
    omega

theorem carried?_eq {old : List NoteField} (h : first.AgreeWithin second old.length newCount)
    {slot : Slot} (hSlot : slot.toNat < newCount) :
    first.carried? old slot = second.carried? old slot := by
  apply Option.ext
  intro field
  rw [first.carried?_eq_some_iff, second.carried?_eq_some_iff]
  constructor
  · rintro ⟨source, hLeast, hField⟩
    exact ⟨source, h.isLeast hSlot (List.getElem?_eq_some_iff.1 hField).1 hLeast, hField⟩
  · rintro ⟨source, hLeast, hField⟩
    exact ⟨source, h.symm.isLeast hSlot (List.getElem?_eq_some_iff.1 hField).1 hLeast, hField⟩

/-- Two tables that agree within bounds move every note alike, under every policy. -/
theorem carryOver_eq {index : FieldIndex} {old : List NoteField}
    (h : first.AgreeWithin second old.length index.size) (policy : LabelPolicy) :
    index.carryOver first policy old = index.carryOver second policy old := by
  rw [FieldIndex.carryOver_eq, FieldIndex.carryOver_eq]
  refine List.map_congr_left fun entry hEntry => ?_
  have hSlot : entry.slot.toNat < index.size := by simpa using (List.mem_filter.1 hEntry).2
  simp only [carriedField, h.carried?_eq hSlot]

end AgreeWithin

/-- The link that counts for a slot, if it starts behind the last of this many old fields. -/
def dangling? (links : SlotLinks) (oldCount : Nat) (slot : Slot) : Option Link := do
  let source ← links.oldSlot? slot
  if oldCount ≤ source.toNat then some ⟨source, slot⟩ else none

/-- A link that dangles is the lowest to its slot and still starts behind the old fields. -/
theorem dangling?_eq_some_iff (links : SlotLinks) (oldCount : Nat) (slot : Slot) (link : Link) :
    links.dangling? oldCount slot = some link ↔
      link.new = slot ∧ IsLeast (links.sources slot) link.old ∧ oldCount ≤ link.old.toNat := by
  obtain ⟨old, new⟩ := link
  simp only [dangling?, Option.bind_eq_bind, Option.bind_eq_some_iff, oldSlot?_eq_some_iff,
    Option.ite_none_right_eq_some, Option.some.injEq, Link.mk.injEq]
  grind

/-- A link dangles at a slot exactly if some link ends there and none starts at an old field. -/
theorem exists_dangling?_iff (links : SlotLinks) (oldCount : Nat) (slot : Slot) :
    (∃ link, links.dangling? oldCount slot = some link) ↔
      (∃ link ∈ links.links, link.new = slot) ∧
        ∀ link ∈ links.links, link.new = slot → oldCount ≤ link.old.toNat := by
  simp only [dangling?_eq_some_iff]
  constructor
  · rintro ⟨⟨source, _⟩, rfl, hLeast, hBehind⟩
    refine ⟨⟨_, hLeast.1, rfl⟩, ?_⟩
    rintro ⟨other, _⟩ hLink rfl
    exact Nat.le_trans hBehind (UInt64.le_iff_toNat_le.1 (hLeast.2 hLink))
  · rintro ⟨⟨⟨old, _⟩, hLink, rfl⟩, hBehind⟩
    obtain ⟨least, hFound, -⟩ := exists_oldSlot?_of_mem_sources hLink
    have hLeast := isLeast_sources_of_oldSlot? hFound
    exact ⟨⟨least, _⟩, rfl, hLeast, hBehind _ hLeast.1 rfl⟩

end SlotLinks

namespace Move

/-- The links that a move reports, in the order of the reports. -/
def reported (move : Move) (oldCount : Nat) : List Link :=
  (move.target.bySlot.map (·.slot)).filterMap (move.links.dangling? oldCount)

/-- Nothing but dangling links is reported. -/
theorem events_eq_map (move : Move) (old : List NoteField) :
    move.events old =
      (move.reported old.length).map fun link => .linkDangling link.old link.new old.length := by
  rw [events, FieldIndex.carryEvents, reported, List.map_filterMap, List.filterMap_map]
  refine List.filterMap_congr fun entry hEntry => ?_
  have hInside := FieldIndex.slot_lt_of_mem_bySlot move.checked hEntry
  rw [carryEvent?, if_neg (by omega), Function.comp_apply, SlotLinks.dangling?]
  cases move.links.oldSlot? entry.slot with
  | none => rfl
  | some source =>
      change (if _ then _ else _) = (if _ then _ else _ : Option Link).map _
      split <;> rfl

/-- No slot is reported twice, and lower slots are reported first. -/
theorem ascending_reported (move : Move) (oldCount : Nat) :
    (move.reported oldCount).Pairwise fun first second => first.new < second.new := by
  refine List.Pairwise.filterMap (move.links.dangling? oldCount) ?_
    (List.pairwise_map.2 move.target.sorted_bySlot)
  intro first second hLt firstLink hFirst secondLink hSecond
  obtain ⟨rfl, -⟩ := (move.links.dangling?_eq_some_iff oldCount first firstLink).1 hFirst
  obtain ⟨rfl, -⟩ := (move.links.dangling?_eq_some_iff oldCount second secondLink).1 hSecond
  exact hLt

/-- A slot is reported exactly if it exists and a link dangles there. -/
theorem exists_reported_iff (move : Move) (oldCount : Nat) (slot : Slot) :
    (∃ link ∈ move.reported oldCount, link.new = slot) ↔ slot.toNat < move.target.size ∧
      ∃ link, move.links.dangling? oldCount slot = some link := by
  rw [← FieldIndex.mem_slots_bySlot_iff move.checked]
  simp only [reported, List.mem_filterMap]
  constructor
  · rintro ⟨link, ⟨_, hSlot, hLink⟩, rfl⟩
    obtain ⟨rfl, -⟩ := (move.links.dangling?_eq_some_iff oldCount _ link).1 hLink
    exact ⟨hSlot, link, hLink⟩
  · rintro ⟨hSlot, link, hLink⟩
    exact ⟨link, ⟨slot, hSlot, hLink⟩, ((move.links.dangling?_eq_some_iff oldCount _ link).1 hLink).1⟩

/-- A position takes over some old field exactly if a link from an old field ends there. -/
theorem exists_delivers_iff (move : Move) (policy : LabelPolicy) (count : Nat) {position : Nat}
    (h : position < move.target.size) :
    (∃ source, move.Delivers policy count source position) ↔
      move.links.Supplies count position := by
  simp only [delivers_iff, SlotLinks.supplies_iff]
  constructor
  · rintro ⟨_, hSource, -, feeding, slot, rfl, hSlot, hFeeding⟩
    exact ⟨slot, feeding, hSlot, hFeeding, hSource⟩
  · rintro ⟨slot, feeding, hSlot, hFeeding, hSource⟩
    exact ⟨feeding.toNat, hSource, h, feeding, slot, rfl, hSlot, hFeeding⟩

/-- A move gives the same fields on the links within the old note and the new form as on all links,
and on any other table with the same links within. So a position takes over an old field exactly if a
link from an old field ends there, in whatever company. Reported are the slots to which there are
links but none from an old field, in ascending order and each once, with the lowest of their links. -/
theorem only_links_within_matter (move : Move) (policy : LabelPolicy) (old : List NoteField) :
    { move with links := move.links.within old.length move.target.size }.fields policy old =
        move.fields policy old ∧
    (∀ links : SlotLinks, links.AgreeWithin move.links old.length move.target.size →
      { move with links }.fields policy old = move.fields policy old) ∧
    (∀ position < move.target.size,
      (∃ source, move.Delivers policy old.length source position) ↔
        ∃ link ∈ move.links.links, link.new.toNat = position ∧ link.old.toNat < old.length) ∧
    ∃ reported : List Link,
      move.events old =
        reported.map (fun link => .linkDangling link.old link.new old.length) ∧
      reported.Pairwise (fun first second => first.new < second.new) ∧
      (∀ link ∈ reported, IsLeast (move.links.sources link.new) link.old) ∧
      ∀ slot, (∃ link ∈ reported, link.new = slot) ↔
        slot.toNat < move.target.size ∧ (∃ link ∈ move.links.links, link.new = slot) ∧
          ∀ link ∈ move.links.links, link.new = slot → old.length ≤ link.old.toNat := by
  refine ⟨?_, ?_, ?_, move.reported old.length, move.events_eq_map old,
    move.ascending_reported old.length, ?_, fun slot => ?_⟩
  · exact (move.links.agreeWithin_within old.length move.target.size).carryOver_eq policy
  · exact fun links hAgree => hAgree.carryOver_eq policy
  · exact fun position hPosition => move.exists_delivers_iff policy old.length hPosition
  · intro link hLink
    obtain ⟨slot, -, hDangling⟩ := List.mem_filterMap.1 hLink
    obtain ⟨rfl, hLeast, -⟩ := (move.links.dangling?_eq_some_iff old.length slot link).1 hDangling
    exact hLeast
  · rw [exists_reported_iff, SlotLinks.exists_dangling?_iff]

/-- Slot 0 has a link from an old field and a dangling one, slot 1 only dangling ones, slot 2 no link,
and one link ends in a slot that is not there. -/
def partlyDangling : Move where
  target := (NoteType.ofNames "Poem" ["Title", "Poet", "Line"]).index
  links := .ofList [⟨9, 0⟩, ⟨1, 0⟩, ⟨8, 1⟩, ⟨6, 1⟩, ⟨0, 7⟩]
  checked := by decide

theorem only_links_within_matter_partlyDangling :
    let old : List NoteField := [⟨"A", "a"⟩, ⟨"B", "b"⟩]
    let links : SlotLinks := .ofList [⟨1, 0⟩, ⟨2, 2⟩]
    links.AgreeWithin partlyDangling.links old.length partlyDangling.target.size ∧
      { partlyDangling with links }.fields .standard old = partlyDangling.fields .standard old ∧
      (∃ source, partlyDangling.Delivers .standard 2 source 0) ∧
      ¬ ∃ source, partlyDangling.Delivers .standard 2 source 1 := by
  intro old links
  have hSize : partlyDangling.target.size = 3 := by decide
  have hAgree : links.AgreeWithin partlyDangling.links old.length partlyDangling.target.size := by
    rw [hSize]
    have hFirst : ∀ link ∈ links.links, link.old.toNat < 2 → link ∈ partlyDangling.links.links := by
      decide
    have hSecond : ∀ link ∈ partlyDangling.links.links, link.old.toNat < 2 → link.new.toNat < 3 →
        link ∈ links.links := by decide
    exact fun link hOld hNew => ⟨fun hLink => hFirst link hLink hOld,
      fun hLink => hSecond link hLink hOld hNew⟩
  obtain ⟨-, hFields, hDelivers, -⟩ := only_links_within_matter partlyDangling .standard old
  exact ⟨hAgree, hFields links hAgree, (hDelivers 0 (by decide)).2 (by decide),
    fun hTaken => absurd ((hDelivers 1 (by decide)).1 hTaken) (by decide)⟩

end Move
end NoteForm
