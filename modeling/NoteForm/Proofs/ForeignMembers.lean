import NoteForm.Proofs.Json.Expected
import NoteForm.Proofs.Json.Legible
import NoteForm.Proofs.Survival

/-! Note types in files that other programs have written, who may have put members of their own among
those that count, in the note type and in its fields. -/
namespace NoteForm

open Json (RecordFormat Decoder Expected HoldsExactly IsDefective ObjectText ListText StringText
  WordText BoolText Padded form formed render readAs_string readAs_word readAs_bool)

namespace FieldDefinition

theorem isField_name : format.IsField "name" .string Draft.name
    fun name draft => { draft with name } where
  find := rfl
  get_set _ _ := rfl
  apart := List.forall_mem_cons.2 ⟨fun hName => absurd rfl hName,
    List.forall_mem_cons.2 ⟨fun _ => RecordFormat.leaves_field fun _ _ => rfl,
      List.forall_mem_singleton.2 fun _ => RecordFormat.leaves_field fun _ _ => rfl⟩⟩

theorem isField_slot : format.IsField "ord" (.word "usize") Draft.slot
    fun slot draft => { draft with slot } where
  find := rfl
  get_set _ _ := rfl
  apart := List.forall_mem_cons.2 ⟨fun _ => RecordFormat.leaves_field fun _ _ => rfl,
    List.forall_mem_cons.2 ⟨fun hName => absurd rfl hName,
      List.forall_mem_singleton.2 fun _ => RecordFormat.leaves_field fun _ _ => rfl⟩⟩

theorem isField_sticky : format.IsField "sticky" .bool Draft.sticky
    fun sticky draft => { draft with sticky } where
  find := rfl
  get_set _ _ := rfl
  apart := List.forall_mem_cons.2 ⟨fun _ => RecordFormat.leaves_field fun _ _ => rfl,
    List.forall_mem_cons.2 ⟨fun _ => RecordFormat.leaves_field fun _ _ => rfl,
      List.forall_mem_singleton.2 fun hName => absurd rfl hName⟩⟩

theorem partitioned_format : format.Partitioned :=
  List.forall_mem_cons.2 ⟨⟨_, _, _, _, _, rfl, isField_name, rfl⟩,
    List.forall_mem_cons.2 ⟨⟨_, _, _, _, _, rfl, isField_slot, rfl⟩,
      List.forall_mem_singleton.2 ⟨_, _, _, _, _, rfl, isField_sticky, rfl⟩⟩⟩

/-- The names of the members that count. -/
def memberNames : List String := ["name", "ord", "sticky"]

/-- What is to be written for a field. That it is sticky may be left out if it is not. -/
def ExpectedAs (definition : FieldDefinition) (expected : List Expected) : Prop :=
  ∃ sticky, expected = ⟨"name", StringText definition.name⟩ :: ⟨"ord", WordText definition.slot⟩ ::
      sticky ∧
    (sticky = [⟨"sticky", BoolText definition.sticky⟩] ∨ sticky = [] ∧ definition.sticky = false)

/-- Whether a text is that of a field in any of its forms: with its members in any order, spelled in
any way, and with any other members among them. -/
def WrittenFreely (definition : FieldDefinition) (own : List Char) : Prop :=
  ∃ members expected, ObjectText members own ∧ definition.ExpectedAs expected ∧
    HoldsExactly memberNames expected members

/-- What is written for a field is one of its forms. -/
theorem writtenFreely_encode (definition : FieldDefinition) (level : Nat) :
    definition.WrittenFreely (render .pretty level (Stored.encode definition)) :=
  ⟨_, _, Json.objectText_render Json.Layout.pretty_addsBlanks level rfl, ⟨_, rfl, .inl rfl⟩, _,
    .rfl,
    .cons ⟨rfl, Json.stringText_render .pretty (level + 1) _⟩
      (.cons ⟨rfl, Json.wordText_render .pretty (level + 1) _⟩
        (.cons ⟨rfl, Json.boolText_render .pretty (level + 1) _⟩ .nil))⟩

/-- A field is read from each of its forms. -/
theorem decode_form {definition : FieldDefinition} {own : List Char}
    (h : definition.WrittenFreely own) (levels : Nat) :
    Stored.decode (levels + 1) (form own) = .ok definition := by
  obtain ⟨members, expected, hOwn, ⟨sticky, rfl, hSticky⟩, hHolds⟩ := h
  obtain ⟨draft, hFold⟩ : ∃ draft,
      (members.map formed).foldlM (format.take levels) format.blank = .ok draft := by
    apply hHolds.exists_draft hOwn partitioned_format rfl
    · rcases hSticky with rfl | ⟨rfl, -⟩ <;> simp
    · refine List.forall_mem_cons.2 ⟨(readAs_string _ _ _).acceptedBy isField_name rfl,
        List.forall_mem_cons.2 ⟨(readAs_word _ _ _ _).acceptedBy isField_slot rfl, ?_⟩⟩
      rcases hSticky with rfl | ⟨rfl, -⟩
      · exact List.forall_mem_singleton.2 ((readAs_bool _ _ _).acceptedBy isField_sticky rfl)
      · simp
  have hName : draft.name = some definition.name :=
    hHolds.get_eq_some hOwn (.head _) isField_name (readAs_string _ _ _) hFold
  have hSlot : draft.slot = some definition.slot :=
    hHolds.get_eq_some hOwn (.tail _ (.head _)) isField_slot (readAs_word _ _ _ _) hFold
  have hKept : draft.sticky.getD false = definition.sticky := by
    apply hHolds.getD_eq hOwn _ (by simp [memberNames]) isField_sticky rfl (readAs_bool _ _ _) hFold
    rcases hSticky with rfl | ⟨rfl, hPlain⟩
    · simp
    · simp [hPlain]
  have hFinish : format.finishObject draft = .ok definition := by
    obtain ⟨name, slot, sticky⟩ := draft
    obtain rfl := hName
    obtain rfl := hSlot
    change Except.ok (mk definition.name definition.slot (sticky.getD false)) = _
    rw [hKept]
  change format.decode (levels + 1) (form own) = .ok definition
  rw [RecordFormat.decode_form hOwn, hFold]
  exact hFinish

/-- The names of the members that there have to be. -/
def requiredNames : List String := ["name", "ord"]

theorem requires_requiredNames : ∀ name ∈ requiredNames, format.Requires name := by
  refine List.forall_mem_cons.2 ⟨⟨_, _, _, _, isField_name, rfl, ?_⟩,
    List.forall_mem_singleton.2 ⟨_, _, _, _, isField_slot, rfl, ?_⟩⟩
  · rintro ⟨_, slot, sticky⟩ definition hFinish rfl
    cases hFinish
  · rintro ⟨name, _, sticky⟩ definition hFinish rfl
    cases name <;> cases hFinish

end FieldDefinition

namespace NoteType

theorem isField_id : format.IsField "id" (.word "u64") Draft.id
    fun id draft => { draft with id } where
  find := rfl
  get_set _ _ := rfl
  apart := List.forall_mem_cons.2 ⟨fun hName => absurd rfl hName,
    List.forall_mem_cons.2 ⟨fun _ => RecordFormat.leaves_field fun _ _ => rfl,
      List.forall_mem_singleton.2 fun _ => RecordFormat.leaves_field fun _ _ => rfl⟩⟩

theorem isField_name : format.IsField "name" .string Draft.name
    fun name draft => { draft with name } where
  find := rfl
  get_set _ _ := rfl
  apart := List.forall_mem_cons.2 ⟨fun _ => RecordFormat.leaves_field fun _ _ => rfl,
    List.forall_mem_cons.2 ⟨fun hName => absurd rfl hName,
      List.forall_mem_singleton.2 fun _ => RecordFormat.leaves_field fun _ _ => rfl⟩⟩

theorem isField_fields : format.IsField "flds" (.list Stored.decode) Draft.fields
    fun fields draft => { draft with fields } where
  find := rfl
  get_set _ _ := rfl
  apart := List.forall_mem_cons.2 ⟨fun _ => RecordFormat.leaves_field fun _ _ => rfl,
    List.forall_mem_cons.2 ⟨fun _ => RecordFormat.leaves_field fun _ _ => rfl,
      List.forall_mem_singleton.2 fun hName => absurd rfl hName⟩⟩

theorem partitioned_format : format.Partitioned :=
  List.forall_mem_cons.2 ⟨⟨_, _, _, _, _, rfl, isField_id, rfl⟩,
    List.forall_mem_cons.2 ⟨⟨_, _, _, _, _, rfl, isField_name, rfl⟩,
      List.forall_mem_singleton.2 ⟨_, _, _, _, _, rfl, isField_fields, rfl⟩⟩⟩

/-- The names of the members that count. -/
def memberNames : List String := ["id", "name", "flds"]

/-- The names of the members that there have to be. -/
def requiredNames : List String := ["name", "flds"]

theorem requires_requiredNames : ∀ name ∈ requiredNames, format.Requires name := by
  refine List.forall_mem_cons.2 ⟨⟨_, _, _, _, isField_name, rfl, ?_⟩,
    List.forall_mem_singleton.2 ⟨_, _, _, _, isField_fields, rfl, ?_⟩⟩
  · rintro ⟨id, _, fields⟩ noteType hFinish rfl
    cases hFinish
  · rintro ⟨id, name, _⟩ noteType hFinish rfl
    cases name <;> cases hFinish

/-- Whether a text is that of a list with each field in one of its forms. -/
def FieldsText (definitions : List FieldDefinition) (own : List Char) : Prop :=
  ∃ pieces, ListText pieces own ∧ List.Forall₂ FieldDefinition.WrittenFreely definitions pieces

theorem readAs_fields (definitions : List FieldDefinition) (levels : Nat) :
    Expected.ReadAs ⟨"flds", FieldsText definitions⟩ (.list Stored.decode) (levels + 2)
      definitions := by
  rintro text - ⟨pieces, hList, hDefinitions⟩
  rw [Decoder.list_form_eq_ok_iff hList]
  exact hDefinitions.flip.imp fun piece definition hFreely =>
    FieldDefinition.decode_form hFreely levels

/-- What is to be written for a note type. The id may be left out if it is zero. -/
def ExpectedAs (noteType : NoteType) (expected : List Expected) : Prop :=
  ∃ id, expected = ⟨"name", StringText noteType.name⟩ :: ⟨"flds", FieldsText noteType.fields⟩ ::
      id ∧
    (id = [⟨"id", WordText noteType.id⟩] ∨ id = [] ∧ noteType.id = 0)

/-- Whether a text is that of a note type in any of its forms: with its members and those of its
fields in any order, spelled in any way, and with any other members among them. -/
def WrittenFreely (noteType : NoteType) (own : List Char) : Prop :=
  ∃ members expected, ObjectText members own ∧ noteType.ExpectedAs expected ∧
    HoldsExactly memberNames expected members

/-- What is written for a note type is one of its forms. -/
theorem writtenFreely_encode (noteType : NoteType) (level : Nat) :
    noteType.WrittenFreely (render .pretty level (Stored.encode noteType)) := by
  have hOwn := Json.objectText_render Json.Layout.pretty_addsBlanks level
    (Stored.Lawful.isIntegral noteType)
  have hFields : FieldsText noteType.fields
      (render .pretty (level + 1) (Stored.encode noteType.fields)) := by
    refine ⟨_, Json.listText_render Json.Layout.pretty_addsBlanks _
      (Stored.Lawful.isIntegral noteType.fields), ?_⟩
    rw [List.map_map, List.forall₂_map_right_iff, List.forall₂_same]
    exact fun definition _ => definition.writtenFreely_encode (level + 2)
  exact ⟨_, _, hOwn, ⟨_, rfl, .inl rfl⟩, _, (List.perm_append_singleton _ _).symm,
    .cons ⟨rfl, Json.stringText_render .pretty (level + 1) _⟩
      (.cons ⟨rfl, hFields⟩ (.cons ⟨rfl, Json.wordText_render .pretty (level + 1) _⟩ .nil))⟩

/-- A note type is read from each of its forms. -/
theorem decode_form {noteType : NoteType} {own : List Char} (h : noteType.WrittenFreely own)
    (levels : Nat) : Stored.decode (levels + 3) (form own) = .ok noteType := by
  obtain ⟨members, expected, hOwn, ⟨id, rfl, hId⟩, hHolds⟩ := h
  obtain ⟨draft, hFold⟩ : ∃ draft,
      (members.map formed).foldlM (format.take (levels + 2)) format.blank = .ok draft := by
    apply hHolds.exists_draft hOwn partitioned_format rfl
    · rcases hId with rfl | ⟨rfl, -⟩ <;> simp
    · refine List.forall_mem_cons.2 ⟨(readAs_string _ _ _).acceptedBy isField_name rfl,
        List.forall_mem_cons.2 ⟨(readAs_fields _ levels).acceptedBy isField_fields rfl, ?_⟩⟩
      rcases hId with rfl | ⟨rfl, -⟩
      · exact List.forall_mem_singleton.2 ((readAs_word _ _ _ _).acceptedBy isField_id rfl)
      · simp
  have hName : draft.name = some noteType.name :=
    hHolds.get_eq_some hOwn (.head _) isField_name (readAs_string _ _ _) hFold
  have hFields : draft.fields = some noteType.fields :=
    hHolds.get_eq_some hOwn (.tail _ (.head _)) isField_fields (readAs_fields _ levels) hFold
  have hKept : draft.id.getD 0 = noteType.id := by
    apply hHolds.getD_eq hOwn _ (by simp [memberNames]) isField_id rfl (readAs_word _ _ _ _) hFold
    rcases hId with rfl | ⟨rfl, hZero⟩
    · simp
    · simp [hZero]
  have hFinish : format.finishObject draft = .ok noteType := by
    obtain ⟨id, name, fields⟩ := draft
    obtain rfl := hName
    obtain rfl := hFields
    change Except.ok (mk (id.getD 0) noteType.name noteType.fields) = _
    rw [hKept]
  change format.decode (levels + 3) (form own) = .ok noteType
  rw [RecordFormat.decode_form hOwn, hFold]
  exact hFinish

/-- Whether a text is that of a note type but for a member that is missing or repeated, in the note
type or in one of its fields. -/
def WrittenDefectively (own : List Char) : Prop :=
  ∃ members, ObjectText members own ∧
    (IsDefective requiredNames memberNames members ∨
      ∃ text pieces piece, ("flds", text) ∈ members ∧ ListText pieces text ∧ piece ∈ pieces ∧
        ∃ parts, ObjectText parts piece ∧
          IsDefective FieldDefinition.requiredNames FieldDefinition.memberNames parts)

/-- No note type is read with a member missing or repeated. -/
theorem decode_form_ne_ok {own : List Char} (h : WrittenDefectively own) (levels : Nat)
    (noteType : NoteType) : Stored.decode (levels + 3) (form own) ≠ .ok noteType := by
  obtain ⟨members, hOwn, hDefective | ⟨text, pieces, piece, hMember, hList, hPiece, parts, hParts,
    hDefective⟩⟩ := h
  · exact Json.decode_form_ne_ok_of_defective partitioned_format requires_requiredNames rfl hOwn
      hDefective (levels + 2) noteType
  · intro hRead
    change format.decode (levels + 3) (form own) = .ok noteType at hRead
    rw [RecordFormat.decode_form hOwn] at hRead
    obtain ⟨draft, hFold, -⟩ := exists_of_bind_eq_ok hRead
    obtain ⟨definitions, hDefinitions, -⟩ :=
      isField_fields.exists_of_written hFold hMember
    have hEach := (Decoder.list_form_eq_ok_iff hList).1 hDefinitions
    obtain ⟨definition, -, hDefinition⟩ := Json.exists_mem_of_forall₂ hEach hPiece
    exact Json.decode_form_ne_ok_of_defective FieldDefinition.partitioned_format
      FieldDefinition.requires_requiredNames rfl hParts hDefective levels definition hDefinition

open Files in
/-- A file with an object in it is read as a note type and never as none. -/
theorem load_eq_of_objectText {disk : Disk} {path : Path} {place : List String} {text : String}
    (hFile : disk.lookUp path = .ok (place, .file text.toUTF8)) {own : List Char}
    (hText : Padded own text.toList) {members : List (String × List Char)}
    (hOwn : ObjectText members own) :
    (load disk path : Except Failure (Option NoteType)) =
      ((Stored.decode 127 (form own)).map some).mapError Failure.json := by
  obtain ⟨entries, hForm, -⟩ := hOwn.exists_form
  have hPresent : (Stored.decode 127 (form own) : Except Json.Fault (Option NoteType)) =
      (Stored.decode 127 (form own)).map some := by
    rw [hForm]
    rfl
  rw [load_of_file hFile, Stored.ofText, Json.decodeText_of_padded hOwn.isJson hText, ← hPresent]
  rfl

open Files in
/-- Note types in files may have foreign members. From a file with a note type in any of its forms the
note type is loaded: members in any order and spelled in any way, members of other names with any
values between them, the id left out if it is zero, and stickiness where a field is not sticky. If any
other member is missing, or any of them is repeated, loading fails over the text. -/
theorem foreign_members_tolerated {disk : Disk} {path : Path} {place : List String} {text : String}
    (hFile : disk.lookUp path = .ok (place, .file text.toUTF8)) {own : List Char}
    (hText : Padded own text.toList) :
    (∀ noteType : NoteType, noteType.WrittenFreely own → load disk path = .ok (some noteType)) ∧
      (WrittenDefectively own → ∃ fault,
        (load disk path : Except Failure (Option NoteType)) = .error (.json fault)) := by
  constructor
  · intro noteType hFreely
    have ⟨members, _, hOwn, _⟩ := hFreely
    rw [load_eq_of_objectText hFile hText hOwn, decode_form hFreely]
    rfl
  · intro hDefective
    have ⟨members, hOwn, _⟩ := hDefective
    rw [load_eq_of_objectText hFile hText hOwn]
    cases hRead : (Stored.decode 127 (form own) : Except Json.Fault NoteType) with
    | error fault => exact ⟨fault, rfl⟩
    | ok noteType => exact absurd hRead (decode_form_ne_ok hDefective 124 noteType)

open Files in
/-- A type with members of no concern and without an id, one without a name, and one with a field that
has its name twice. -/
theorem foreign_members_tolerated_basic :
    let path : Path := ⟨"form/types/basic.json"⟩
    let name := ("name", Json.string "Basic")
    let fields (members : List (String × Json)) := ("flds", Json.array [.object members])
    let slot := ("ord", encodeWord 0)
    let front := ("name", Json.string "Front")
    let loaded (members : List (String × Json)) : Except Failure (Option NoteType) :=
      load (save Disk.empty path (Json.object members)).disk path
    loaded [("mod", .null), fields [slot, ("font", .array []), front], name] =
        .ok (some ⟨0, "Basic", [⟨"Front", 0, false⟩]⟩) ∧
      (∃ fault, loaded [fields [slot, front]] = .error (.json fault)) ∧
      ∃ fault, loaded [name, fields [slot, front, front]] = .error (.json fault) := by
  intro path name fields slot front loaded
  have hSave : (save Disk.empty path Json.null).result = .ok () := by decide
  have hFile (members : List (String × Json)) := lookUp_save_of_other hSave (Json.object members)
  have hObject (level : Nat) {members : List (String × Json)}
      (h : (Json.object members).isIntegral = true) :=
    Json.objectText_render Json.Layout.pretty_addsBlanks level h
  have hList {items : List Json} (h : (Json.array items).isIntegral = true) :=
    Json.listText_render Json.Layout.pretty_addsBlanks 1 h
  refine ⟨?_, ?_, ?_⟩
  · obtain ⟨place, hPlace⟩ := hFile
      [("mod", .null), fields [slot, ("font", .array []), front], name]
    have hFront : FieldDefinition.WrittenFreely ⟨"Front", 0, false⟩
        (render .pretty 2 (.object [slot, ("font", .array []), front])) :=
      ⟨_, _, hObject 2 rfl, ⟨[], rfl, .inr ⟨rfl, rfl⟩⟩, _, .swap _ _ _,
        .cons ⟨rfl, Json.stringText_render .pretty 3 "Front"⟩
          (.cons ⟨rfl, Json.wordText_render .pretty 3 0⟩ .nil)⟩
    have hFields : FieldsText [⟨"Front", 0, false⟩]
        (render .pretty 1 (.array [.object [slot, ("font", .array []), front]])) :=
      ⟨_, hList rfl, .cons hFront .nil⟩
    exact (foreign_members_tolerated hPlace (Json.padded_pretty _)).1 _
      ⟨_, _, hObject 0 rfl, ⟨[], rfl, .inr ⟨rfl, rfl⟩⟩, _, .swap _ _ _,
        .cons ⟨rfl, Json.stringText_render .pretty 1 "Basic"⟩ (.cons ⟨rfl, hFields⟩ .nil)⟩
  · obtain ⟨place, hPlace⟩ := hFile [fields [slot, front]]
    refine (foreign_members_tolerated hPlace (Json.padded_pretty _)).2
      ⟨_, hObject 0 rfl, .inl (.inl ⟨"name", .head _, ?_⟩)⟩
    simp [fields]
  · obtain ⟨place, hPlace⟩ := hFile [name, fields [slot, front, front]]
    exact (foreign_members_tolerated hPlace (Json.padded_pretty _)).2
      ⟨_, hObject 0 rfl, .inr ⟨_, _, _, .tail _ (.head _), hList rfl, .head _, _, hObject 2 rfl,
        .inr ⟨"name", .head _, by decide⟩⟩⟩

end NoteType
end NoteForm
