import NoteForm.Proofs.Files.Archive
import NoteForm.Proofs.Json.Forms
import NoteForm.Proofs.Json.Legible
import NoteForm.Records

/-! Stored label policies. Members that are left out are as in the standard policy; but if anything is
wrong with the file, nothing of it counts. -/
namespace NoteForm.LabelPolicy

open Json (RecordFormat Decoder ObjectText WordText StringText Padded IsDocument)

theorem isField_minOldFields :
    format.IsField "remap_label_min_old_fields" (.word "usize") Draft.minOldFields
      fun minOldFields draft => { draft with minOldFields } where
  find := rfl
  get_set _ _ := rfl
  apart := List.forall_mem_cons.2 ⟨fun hName => absurd rfl hName,
    List.forall_mem_singleton.2 fun _ => RecordFormat.leaves_field fun _ _ => rfl⟩

theorem isField_template :
    format.IsField "remap_label_template" .string Draft.template
      fun template draft => { draft with template } where
  find := rfl
  get_set _ _ := rfl
  apart := List.forall_mem_cons.2 ⟨fun _ => RecordFormat.leaves_field fun _ _ => rfl,
    List.forall_mem_singleton.2 fun hName => absurd rfl hName⟩

theorem partitioned_format : format.Partitioned :=
  List.forall_mem_cons.2 ⟨⟨_, _, _, _, _, rfl, isField_minOldFields, rfl⟩,
    List.forall_mem_singleton.2 ⟨_, _, _, _, _, rfl, isField_template, rfl⟩⟩

/-- The names of the members that count. -/
def memberNames : List String := ["remap_label_min_old_fields", "remap_label_template"]

/-- Whether each member that counts has a value of its kind: the decimal text of a word of 64 bits, or
a string. -/
structure WellTyped (members : List (String × List Char)) : Prop where
  minOldFields : ∀ own, ("remap_label_min_old_fields", own) ∈ members → ∃ word, WordText word own
  template : ∀ own, ("remap_label_template", own) ∈ members → ∃ text, StringText text own

/-- Whether a policy is as the members say, and as the standard policy where they say nothing. -/
structure TakenFrom (policy : LabelPolicy) (members : List (String × List Char)) : Prop where
  minOldFields : ∀ own, ("remap_label_min_old_fields", own) ∈ members →
    WordText policy.minOldFields own
  template : ∀ own, ("remap_label_template", own) ∈ members → StringText policy.template own
  standardMinOldFields : (∀ own, ("remap_label_min_old_fields", own) ∉ members) →
    policy.minOldFields = standard.minOldFields
  standardTemplate : (∀ own, ("remap_label_template", own) ∉ members) →
    policy.template = standard.template

/-- The members that count can be taken in exactly if they are well typed. -/
theorem accepts_iff_wellTyped {own : List Char} {members : List (String × List Char)}
    (hOwn : ObjectText members own) {levels : Nat} :
    (∀ member ∈ members, (∃ field ∈ format.fields, field.name = member.1) →
      format.Accepts levels (Json.formed member)) ↔ WellTyped members := by
  have hMinOldFields {own : List Char} (h : ("remap_label_min_old_fields", own) ∈ members) :
      format.Accepts levels ("remap_label_min_old_fields", Json.form own) ↔
        ∃ word, WordText word own := by
    rw [isField_minOldFields.accepts_iff rfl]
    exact exists_congr fun _ => Decoder.word_form_eq_ok_iff (hOwn.values _ h)
  have hTemplate {own : List Char} (h : ("remap_label_template", own) ∈ members) :
      format.Accepts levels ("remap_label_template", Json.form own) ↔
        ∃ text, StringText text own := by
    rw [isField_template.accepts_iff rfl]
    exact exists_congr fun _ => Decoder.string_form_eq_ok_iff (hOwn.values _ h)
  constructor
  · intro hAccepts
    exact ⟨fun own hMember => (hMinOldFields hMember).1 (hAccepts _ hMember ⟨_, .head _, rfl⟩),
      fun own hMember => (hTemplate hMember).1 (hAccepts _ hMember ⟨_, .tail _ (.head _), rfl⟩)⟩
  · rintro hTyped ⟨name, own⟩ hMember ⟨field, hField, hName⟩
    rcases List.mem_cons.1 hField with rfl | hField
    · obtain rfl : "remap_label_min_old_fields" = name := hName
      exact (hMinOldFields hMember).2 (hTyped.minOldFields own hMember)
    · obtain rfl := List.mem_singleton.1 hField
      obtain rfl : "remap_label_template" = name := hName
      exact (hTemplate hMember).2 (hTyped.template own hMember)

section

variable {text : String} {own : List Char} {members : List (String × List Char)}
  (hText : Padded own text.toList) (hOwn : ObjectText members own)

include hText hOwn

/-- A policy is read from its members one after the other, whatever else stands among them. -/
theorem ofText_eq : (Stored.ofText text : Except Json.Fault LabelPolicy) =
    (members.map Json.formed).foldlM (format.take 126) format.blank >>= format.finishObject := by
  rw [Stored.ofText, Json.decodeText_of_padded hOwn.isJson hText]
  exact RecordFormat.decode_form hOwn

/-- A policy is read from an object if no member that counts is repeated or ill typed. -/
theorem exists_ofText_iff : (∃ policy : LabelPolicy, Stored.ofText text = .ok policy) ↔
    (∀ name ∈ memberNames, (members.map Prod.fst).count name ≤ 1) ∧ WellTyped members := by
  have hNames : memberNames = format.fields.map (·.name) := rfl
  have hFinish : (∃ policy : LabelPolicy, Stored.ofText text = .ok policy) ↔
      ∃ draft, (members.map Json.formed).foldlM (format.take 126) format.blank = .ok draft := by
    rw [ofText_eq hText hOwn]
    constructor
    · rintro ⟨policy, hPolicy⟩
      obtain ⟨draft, hDraft, -⟩ := exists_of_bind_eq_ok hPolicy
      exact ⟨draft, hDraft⟩
    · rintro ⟨draft, hDraft⟩
      exact ⟨_, by rw [hDraft]; rfl⟩
  rw [hFinish, partitioned_format.exists_foldlM_formed_iff hOwn, hNames, List.forall_mem_map,
    accepts_iff_wellTyped hOwn]

/-- A policy that is read from an object is as its members say. -/
theorem takenFrom_of_ofText {policy : LabelPolicy} (h : Stored.ofText text = .ok policy) :
    policy.TakenFrom members := by
  rw [ofText_eq hText hOwn] at h
  obtain ⟨draft, hFold, hFinish⟩ := exists_of_bind_eq_ok h
  obtain rfl := Except.ok.inj hFinish
  constructor
  · intro own hThere
    obtain ⟨word, hWord, hSet⟩ := isField_minOldFields.exists_of_written hFold hThere
    rw [hSet]
    exact (Decoder.word_form_eq_ok_iff (hOwn.values _ hThere)).1 hWord
  · intro own hThere
    obtain ⟨text, hString, hSet⟩ := isField_template.exists_of_written hFold hThere
    rw [hSet]
    exact (Decoder.string_form_eq_ok_iff (hOwn.values _ hThere)).1 hString
  · intro hMissing
    rw [isField_minOldFields.get_of_missing hFold hMissing]
    rfl
  · intro hMissing
    rw [isField_template.get_of_missing hFold hMissing]
    rfl

end

/-- Whoever reads a policy has looked at the whole object. -/
theorem checks_decode : Decoder.Checks (Stored.decode : Decoder LabelPolicy) :=
  RecordFormat.checks_decode (List.forall_mem_cons.2
    ⟨RecordFormat.checks_field Decoder.checks_integer,
      List.forall_mem_singleton.2 (RecordFormat.checks_field Decoder.checks_string)⟩)

open Files in
/-- A stored policy counts member by member or not at all. From an object without repeated names each
member that counts is taken over and the others are as in the standard policy, if all that are there
are well typed; with one that is not the policy is the standard one in both parts. A member that counts
and stands there twice, a text that breaks the rules and bytes that are no text have the same effect.
What other members there are, in which order and how they are spelled, does not matter. -/
theorem stored_policy_whole_or_standard {disk : Disk} {path : Path} {place : List String}
    {content : ByteArray} (hFile : disk.lookUp path = .ok (place, .file content)) :
    let policy : LabelPolicy := loadOrDefault disk path
    (∀ (text : String) (own : List Char) (members : List (String × List Char)),
      content = text.toUTF8 → Padded own text.toList → ObjectText members own →
        ((members.map Prod.fst).Nodup →
          (WellTyped members → policy.TakenFrom members) ∧
          (¬WellTyped members → policy = standard)) ∧
        ∀ name ∈ memberNames, 1 < (members.map Prod.fst).count name → policy = standard) ∧
    (∀ text : String, content = text.toUTF8 → ¬IsDocument text → policy = standard) ∧
    (String.fromUTF8? content = none → policy = standard) := by
  intro policy
  have hLoad {text : String} (hContent : content = text.toUTF8) :
      policy = (Stored.ofText text).toOption.getD standard := by
    subst hContent
    exact loadOrDefault_of_file hFile
  have hStandard {text : String} (hContent : content = text.toUTF8)
      (hNone : ¬∃ read : LabelPolicy, Stored.ofText text = .ok read) : policy = standard := by
    rw [hLoad hContent]
    cases hRead : (Stored.ofText text : Except Json.Fault LabelPolicy) with
    | error fault => rfl
    | ok read => exact absurd ⟨read, hRead⟩ hNone
  refine ⟨fun text own members hContent hText hOwn => ⟨fun hNames => ⟨?_, ?_⟩, ?_⟩, ?_, ?_⟩
  · intro hTyped
    obtain ⟨read, hRead⟩ := (exists_ofText_iff hText hOwn).2
      ⟨fun name _ => List.nodup_iff_count_le_one.1 hNames name, hTyped⟩
    rw [hLoad hContent, hRead]
    exact takenFrom_of_ofText hText hOwn hRead
  · intro hIllTyped
    exact hStandard hContent fun hRead => hIllTyped ((exists_ofText_iff hText hOwn).1 hRead).2
  · intro name hName hTwice
    apply hStandard hContent
    intro hRead
    exact absurd (((exists_ofText_iff hText hOwn).1 hRead).1 name hName) (Nat.not_le.2 hTwice)
  · intro text hContent hBroken
    apply hStandard hContent
    rintro ⟨read, hRead⟩
    exact hBroken (Json.isDocument_of_decodeText checks_decode hRead)
  · intro hBytes
    exact loadOrDefault_of_bytes hFile hBytes

open Files in
/-- A template beside a member of no concern, beside `null` for the number, and twice. -/
theorem stored_policy_whole_or_standard_templates :
    let path : Path := ⟨"form/settings.json"⟩
    let template := ("remap_label_template", Json.string "\x7bold\x7d \u2192 \x7bnew\x7d")
    let loaded (members : List (String × Json)) : LabelPolicy :=
      loadOrDefault (save Disk.empty path (Json.object members)).disk path
    loaded [("theme", .array [.bool true]), template] = ⟨2, "\x7bold\x7d \u2192 \x7bnew\x7d"⟩ ∧
      loaded [template, ("remap_label_min_old_fields", .null)] = standard ∧
      loaded [template, template] = standard := by
  intro path template loaded
  have hSave : (save Disk.empty path Json.null).result = .ok () := by decide
  have hFile (members : List (String × Json)) := lookUp_save_of_other hSave (Json.object members)
  have hObject {members : List (String × Json)} (h : (Json.object members).isIntegral = true) :=
    Json.objectText_render Json.Layout.pretty_addsBlanks 0 h
  refine ⟨?_, ?_, ?_⟩
  · obtain ⟨place, hPlace⟩ := hFile [("theme", .array [.bool true]), template]
    obtain ⟨hNames, -⟩ := (stored_policy_whole_or_standard hPlace).1 _ _ _ rfl
      (Json.padded_pretty _) (hObject rfl)
    obtain ⟨-, hTemplate, hStandard, -⟩ := (hNames (by decide)).1 ⟨by simp [template], by
      simpa [template] using ⟨_, Json.stringText_render _ _ _⟩⟩
    have hSame := (hTemplate _ (.tail _ (.head _))).unique (Json.stringText_render _ _ _)
    have hNumber := hStandard (by simp [template])
    exact congrArg₂ mk hNumber hSame
  · obtain ⟨place, hPlace⟩ := hFile [template, ("remap_label_min_old_fields", .null)]
    obtain ⟨hNames, -⟩ := (stored_policy_whole_or_standard hPlace).1 _ _ _ rfl
      (Json.padded_pretty _) (hObject rfl)
    refine (hNames (by decide)).2 fun hTyped => ?_
    obtain ⟨word, hWord⟩ := hTyped.minOldFields _ (.tail _ (.head _))
    have hRead : Decoder.word "usize" 0 (Json.form ['n', 'u', 'l', 'l']) = .ok word :=
      (Decoder.word_form_eq_ok_iff .null).2 hWord
    rw [Json.scans_null.form_eq] at hRead
    cases hRead
  · obtain ⟨place, hPlace⟩ := hFile [template, template]
    obtain ⟨-, hTwice⟩ := (stored_policy_whole_or_standard hPlace).1 _ _ _ rfl
      (Json.padded_pretty _) (hObject rfl)
    exact hTwice "remap_label_template" (by decide) (by decide)

end NoteForm.LabelPolicy
