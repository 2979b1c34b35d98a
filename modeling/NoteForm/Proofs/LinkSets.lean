import Mathlib.Data.Set.Card
import NoteForm.Proofs.SlotLinks

/-! A table of links is the set of the pairs it was given. However it was begun and in whatever order
links were inserted, nothing but this set can be seen in it. -/
namespace NoteForm.SlotLinks

/-- How a table is begun. -/
inductive Start where
  | empty
  | ofOldToNew (map : SlotMap)
  | ofNewToOld (map : SlotMap)
  | identity (count : Slot)
  | ofList (links : List Link)

def Start.table : Start → SlotLinks
  | empty => SlotLinks.empty
  | ofOldToNew map => SlotLinks.ofOldToNew map
  | ofNewToOld map => SlotLinks.ofNewToOld map
  | identity count => SlotLinks.identity count
  | ofList links => SlotLinks.ofList links

/-- The links a table is begun with. -/
def Start.links : Start → Set Link
  | empty => ∅
  | ofOldToNew map => {link | map.get? link.old = some link.new}
  | ofNewToOld map => {link | map.get? link.new = some link.old}
  | identity count => {link | link.old = link.new ∧ link.new < count}
  | ofList links => {link | link ∈ links}

/-- How a table is made: it is begun, and links are inserted one after the other. -/
structure Making where
  start : Start
  inserted : List Link

namespace Making

def table (making : Making) : SlotLinks := making.inserted.foldl insert making.start.table

/-- The links that are given to a table while it is made. -/
def links (making : Making) : Set Link := making.start.links ∪ {link | link ∈ making.inserted}

end Making

/-- Everything that can be seen in a table of a set of links: they are listed by old and then by new
slot, each of them once, and each slot is fed by the lowest of the old slots linked to it. -/
structure Shows (table : SlotLinks) (links : Set Link) : Prop where
  mem_iff : ∀ link, link ∈ table.links ↔ link ∈ links
  ascending : table.links.Pairwise fun first second =>
    first.old < second.old ∨ first.old = second.old ∧ first.new < second.new
  once : table.links.Nodup
  size : table.size = links.ncard
  feeds : ∀ new old, table.oldSlot? new = some old ↔ IsLeast {old | ⟨old, new⟩ ∈ links} old
  unfed : ∀ new, table.oldSlot? new = none ↔ ∀ old, ⟨old, new⟩ ∉ links

@[simp] theorem mem_links_insert (table : SlotLinks) (link other : Link) :
    other ∈ (table.insert link).links ↔ other = link ∨ other ∈ table.links :=
  Ascending.mem_put_iff Link.key_injective table.ascending

@[simp] theorem mem_links_foldl_insert (table : SlotLinks) (inserted : List Link) (link : Link) :
    link ∈ (inserted.foldl insert table).links ↔ link ∈ table.links ∨ link ∈ inserted := by
  induction inserted generalizing table with
  | nil => simp
  | cons first rest ih =>
      simp [ih, or_assoc, or_left_comm]

@[simp] theorem Start.mem_links_table (start : Start) (link : Link) :
    link ∈ start.table.links ↔ link ∈ start.links := by
  cases start with
  | empty => simp [table, links, SlotLinks.empty]
  | ofOldToNew map => exact mem_sources_ofOldToNew map
  | ofNewToOld map => exact mem_sources_ofNewToOld map
  | identity count => exact mem_sources_identity
  | ofList listed => exact mem_links_ofList

/-- However a table is made, its links are those it was given. -/
@[simp] theorem Making.mem_links_table (making : Making) (link : Link) :
    link ∈ making.table.links ↔ link ∈ making.links := by
  simp [table, links]

/-- Tables are told apart by their links alone. -/
theorem eq_iff_mem_links (first second : SlotLinks) :
    first = second ↔ ∀ link, link ∈ first.links ↔ link ∈ second.links := by
  constructor
  · rintro rfl link
    rfl
  · intro hSame
    have hPerm : first.links.Perm second.links :=
      (List.perm_ext_iff_of_nodup first.nodup_links second.nodup_links).2 hSame
    have hLinks : first.links = second.links :=
      first.ascending.eq_of_perm second.ascending hPerm
    cases first
    cases second
    simpa using hLinks

/-- Whatever set the links of a table make up, the table shows that set. -/
theorem shows_of_mem_iff {table : SlotLinks} {links : Set Link}
    (h : ∀ link, link ∈ table.links ↔ link ∈ links) : table.Shows links := by
  obtain rfl : {link | link ∈ table.links} = links := Set.ext h
  refine ⟨h, ?_, table.nodup_links, ?_, fun new old => table.oldSlot?_eq_some_iff new old, ?_⟩
  · exact table.ascending.imp Link.key_lt_iff.1
  · rw [size, ← List.toFinset_card_of_nodup table.nodup_links, ← Set.ncard_coe_finset,
      List.coe_toFinset]
  · intro new
    constructor
    · intro hNone old hMem
      obtain ⟨least, hFound, -⟩ := exists_oldSlot?_of_mem_sources hMem
      rw [hNone] at hFound
      cases hFound
    · intro hNone
      cases hFound : table.oldSlot? new with
      | none => rfl
      | some old => exact absurd (isLeast_sources_of_oldSlot? hFound).1 (hNone old)

/-- A table is the set of the links it was given. Whatever it was begun with and whatever was
inserted, it shows this set: the links in order, each once, and for each slot the lowest slot linked
to it. Two tables are equal if they were given the same links, in any order and any number of times,
and only then; so a map of slots may hand over its pairs in any order. Links that are inserted do not
wait for each other, and inserting one again changes nothing. -/
theorem tables_are_sets_of_links :
    (∀ making : Making, making.table.Shows making.links) ∧
      (∀ first second : Making, first.table = second.table ↔ first.links = second.links) ∧
      (∀ first second : SlotLinks,
        first = second ↔ ∀ link, link ∈ first.links ↔ link ∈ second.links) ∧
      (∀ (map : SlotMap) (new : Slot), (ofNewToOld map).oldSlot? new = map.get? new) ∧
      (∀ (table : SlotLinks) (link other : Link),
        (table.insert link).insert other = (table.insert other).insert link) ∧
      ∀ (table : SlotLinks) (link : Link), (table.insert link).insert link = table.insert link := by
  refine ⟨fun making => shows_of_mem_iff making.mem_links_table, ?_, eq_iff_mem_links,
    oldSlot?_ofNewToOld, ?_, ?_⟩
  · intro first second
    simp [eq_iff_mem_links, Set.ext_iff]
  · intro table link other
    rw [eq_iff_mem_links]
    intro held
    simp only [mem_links_insert, or_left_comm]
  · intro table link
    rw [eq_iff_mem_links]
    intro held
    simp

/-- The lower of two competing slots feeds the slot both are linked to, though it came later. -/
example : ((empty.insert ⟨3, 0⟩).insert ⟨1, 0⟩).oldSlot? 0 = some 1 := by decide

end NoteForm.SlotLinks
