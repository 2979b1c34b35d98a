import NoteForm.Proofs.Json.Forms

/-! Objects of which is known which members they should have. They may have others besides, but no
record is read if one that it needs is missing or one that it knows is repeated. -/
namespace NoteForm.Json

/-- What is to be written for a member: its name, and which texts will do for its value. -/
structure Expected where
  name : String
  suits : List Char → Prop

/-- Whether the texts that will do are all read as the value. -/
def Expected.ReadAs {β : Type} (own : Expected) (decode : Decoder β) (levels : Nat) (value : β) :
    Prop :=
  ∀ text, IsJson text → own.suits text → decode levels (form text) = .ok value

/-- Whether a format takes in all the texts that will do. -/
def Expected.AcceptedBy {σ α : Type} (own : Expected) (format : RecordFormat σ α) (levels : Nat) :
    Prop :=
  ∀ text, IsJson text → own.suits text → format.Accepts levels (own.name, form text)

/-- What is read under a name is accepted by a format that has a field for it. -/
theorem Expected.ReadAs.acceptedBy {σ α β : Type} {own : Expected} {format : RecordFormat σ α}
    {decode : Decoder β} {get : σ → Option β} {set : β → σ → σ} {levels : Nat} {value : β}
    (h : own.ReadAs decode levels value) (hField : format.IsField own.name decode get set)
    (hBlank : get format.blank = none) : own.AcceptedBy format levels :=
  fun text hText hSuits => (hField.accepts_iff hBlank).2 ⟨value, h text hText hSuits⟩

theorem readAs_string (name text : String) (levels : Nat) :
    Expected.ReadAs ⟨name, StringText text⟩ Decoder.string levels text :=
  fun _ hText hSuits => (Decoder.string_form_eq_ok_iff hText).2 hSuits

theorem readAs_word (name kind : String) (word : UInt64) (levels : Nat) :
    Expected.ReadAs ⟨name, WordText word⟩ (.word kind) levels word :=
  fun _ hText hSuits => (Decoder.word_form_eq_ok_iff hText).2 hSuits

theorem readAs_bool (name : String) (value : Bool) (levels : Nat) :
    Expected.ReadAs ⟨name, BoolText value⟩ Decoder.bool levels value :=
  fun _ hText hSuits => (Decoder.bool_form_eq_ok_iff hText).2 hSuits

/-- Whether the members with these names are the expected ones, in any order. Members with other names
may stand anywhere among them. -/
def HoldsExactly (names : List String) (expected : List Expected)
    (members : List (String × List Char)) : Prop :=
  ∃ written : List (String × List Char), (members.filter (·.1 ∈ names)).Perm written ∧
    List.Forall₂ (fun own member => member.1 = own.name ∧ own.suits member.2) expected written

theorem exists_mem_of_forall₂ {α β : Type} {r : α → β → Prop} {items : List α} {others : List β}
    (h : List.Forall₂ r items others) {item : α} (hItem : item ∈ items) :
    ∃ other ∈ others, r item other := by
  obtain ⟨⟨position, hPosition⟩, rfl⟩ := List.mem_iff_get.1 hItem
  exact ⟨_, List.get_mem _ _, h.get hPosition (h.length_eq ▸ hPosition)⟩

namespace HoldsExactly

variable {names : List String} {expected : List Expected} {members : List (String × List Char)}
  (h : HoldsExactly names expected members)

include h

/-- A name stands there as often as it is expected. -/
theorem count_eq {name : String} (hName : name ∈ names) :
    (members.map Prod.fst).count name = (expected.map Expected.name).count name := by
  obtain ⟨written, hPerm, hWritten⟩ := h
  have hNames : expected.map Expected.name = written.map Prod.fst := by
    rw [← List.forall₂_eq_eq_eq, List.forall₂_map_left_iff, List.forall₂_map_right_iff]
    exact hWritten.imp fun _ _ hOwn => hOwn.1.symm
  rw [hNames, ← (hPerm.map Prod.fst).count_eq,
    ← List.count_filter (p := fun name => decide (name ∈ names)) (decide_eq_true hName),
    List.filter_map]
  rfl

/-- Each member of one of the names is one of the expected ones. -/
theorem exists_expected {member : String × List Char} (hMember : member ∈ members)
    (hName : member.1 ∈ names) :
    ∃ own ∈ expected, member.1 = own.name ∧ own.suits member.2 := by
  obtain ⟨written, hPerm, hWritten⟩ := h
  have hThere : member ∈ written :=
    hPerm.mem_iff.1 (List.mem_filter.2 ⟨hMember, decide_eq_true hName⟩)
  exact exists_mem_of_forall₂ hWritten.flip hThere

/-- Each expected member is there. -/
theorem exists_member {own : Expected} (hOwn : own ∈ expected) :
    ∃ text, (own.name, text) ∈ members ∧ own.suits text := by
  obtain ⟨written, hPerm, hWritten⟩ := h
  obtain ⟨⟨name, text⟩, hThere, rfl, hSuits⟩ := exists_mem_of_forall₂ hWritten hOwn
  exact ⟨text, (List.mem_filter.1 (hPerm.mem_iff.2 hThere)).1, hSuits⟩

variable {σ α β : Type} {format : RecordFormat σ α} {levels : Nat} {text : List Char}
  (hText : ObjectText members text)

include hText

/-- A draft is made from the expected members if each of them can be read. -/
theorem exists_draft (hFormat : format.Partitioned) (hFields : names = format.fields.map (·.name))
    (hNames : (expected.map Expected.name).Nodup)
    (hAccepted : ∀ own ∈ expected, own.AcceptedBy format levels) :
    ∃ draft, (members.map formed).foldlM (format.take levels) format.blank = .ok draft := by
  subst hFields
  rw [hFormat.exists_foldlM_formed_iff hText]
  constructor
  · intro field hField
    rw [h.count_eq (List.mem_map_of_mem hField)]
    exact List.nodup_iff_count_le_one.1 hNames field.name
  · rintro ⟨name, text⟩ hMember ⟨field, hField, rfl⟩
    obtain ⟨own, hOwn, hName, hSuits⟩ := h.exists_expected hMember (List.mem_map_of_mem hField)
    have hAccepts := hAccepted own hOwn text (hText.values _ hMember) hSuits
    rwa [← hName] at hAccepts

/-- The field of an expected member gets what is read from it. -/
theorem get_eq_some {own : Expected} (hOwn : own ∈ expected) {decode : Decoder β}
    {get : σ → Option β} {set : β → σ → σ} (hField : format.IsField own.name decode get set)
    {value : β} (hRead : own.ReadAs decode levels value) {draft : σ}
    (hFold : (members.map formed).foldlM (format.take levels) format.blank = .ok draft) :
    get draft = some value := by
  obtain ⟨text, hMember, hSuits⟩ := h.exists_member hOwn
  obtain ⟨found, hFound, hSet⟩ := hField.exists_of_written hFold hMember
  rw [hSet, ← Except.ok.inj ((hRead text (hText.values _ hMember) hSuits).symm.trans hFound)]

omit hText in
/-- A field of which no member is expected stays unset. -/
theorem get_eq_none {name : String} (hName : name ∈ names)
    (hNone : name ∉ expected.map Expected.name) {decode : Decoder β} {get : σ → Option β}
    {set : β → σ → σ} (hField : format.IsField name decode get set)
    (hBlank : get format.blank = none) {draft : σ}
    (hFold : (members.map formed).foldlM (format.take levels) format.blank = .ok draft) :
    get draft = none := by
  rw [hField.get_of_missing hFold, hBlank]
  intro text hMember
  obtain ⟨own, hOwn, rfl, -⟩ := h.exists_expected hMember hName
  exact hNone (List.mem_map_of_mem hOwn)

/-- A field with a fallback is as expected, also where its member is left out for the fallback. -/
theorem getD_eq {own : Expected} {value fallback : β}
    (hOwn : own ∈ expected ∨ own.name ∉ expected.map Expected.name ∧ value = fallback)
    (hName : own.name ∈ names) {decode : Decoder β} {get : σ → Option β} {set : β → σ → σ}
    (hField : format.IsField own.name decode get set) (hBlank : get format.blank = none)
    (hRead : own.ReadAs decode levels value) {draft : σ}
    (hFold : (members.map formed).foldlM (format.take levels) format.blank = .ok draft) :
    (get draft).getD fallback = value := by
  rcases hOwn with hThere | ⟨hNone, hValue⟩
  · rw [h.get_eq_some hText hThere hField hRead hFold, Option.getD_some]
  · rw [h.get_eq_none hName hNone hField hBlank hFold, Option.getD_none, hValue]

end HoldsExactly

/-- Whether an object lacks a required member or has one of the named members twice. -/
def IsDefective (required names : List String) (members : List (String × List Char)) : Prop :=
  (∃ name ∈ required, ∀ own, (name, own) ∉ members) ∨
    ∃ name ∈ names, 1 < (members.map Prod.fst).count name

/-- Whether there is no record without the member. -/
def RecordFormat.Requires {σ α : Type} (format : RecordFormat σ α) (name : String) : Prop :=
  ∃ (β : Type) (decode : Decoder β) (get : σ → Option β) (set : β → σ → σ),
    format.IsField name decode get set ∧ get format.blank = none ∧
      ∀ draft record, format.finishObject draft = .ok record → get draft ≠ none

/-- No record is read from an object with a member missing or repeated. -/
theorem decode_form_ne_ok_of_defective {σ α : Type} {format : RecordFormat σ α}
    (hFormat : format.Partitioned) {required names : List String}
    (hRequired : ∀ name ∈ required, format.Requires name)
    (hNames : names = format.fields.map (·.name)) {own : List Char}
    {members : List (String × List Char)} (hOwn : ObjectText members own)
    (hDefective : IsDefective required names members) (levels : Nat) (record : α) :
    format.decode (levels + 1) (form own) ≠ .ok record := by
  intro hRead
  rw [RecordFormat.decode_form hOwn] at hRead
  obtain ⟨draft, hFold, hFinish⟩ := exists_of_bind_eq_ok hRead
  rcases hDefective with ⟨name, hName, hMissing⟩ | ⟨name, hName, hTwice⟩
  · obtain ⟨β, decode, get, set, hField, hBlank, hSet⟩ := hRequired name hName
    apply hSet draft record hFinish
    rw [hField.get_of_missing hFold hMissing, hBlank]
  · rw [hNames] at hName
    obtain ⟨field, hField, rfl⟩ := List.mem_map.1 hName
    have hOnce := ((hFormat.exists_foldlM_formed_iff hOwn).1 ⟨draft, hFold⟩).1 field hField
    exact absurd hOnce (Nat.not_le.2 hTwice)

end NoteForm.Json
