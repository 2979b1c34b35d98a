import NoteForm.Proofs.Json.Record
import NoteForm.Proofs.Json.Spelling

/-! Nothing is read from a text that breaks the rules. What is passed over or read as a value has a
form without faults, and only a text that keeps to the rules has such a form. -/
namespace NoteForm.Json

mutual

/-- Whether a form is without faults. Numbers may be out of range. -/
def Source.Legible : Source → Prop
  | .missing _ | .misspelt _ | .misnumbered _ => False
  | .null | .bool _ | .number _ => True
  | .string text => text.Legible
  | .list items => items.Legible
  | .object members => members.Legible

def Items.Legible : Items → Prop
  | .close => True
  | .stop _ => False
  | .item value rest => value.Legible ∧ rest.Legible

def Members.Legible : Members → Prop
  | .close => True
  | .stop _ | .keyless _ | .unpaired _ _ => False
  | .member key value rest => key.Legible ∧ value.Legible ∧ rest.Legible

end

mutual

/-- What can be passed over is without faults. -/
theorem Source.legible_of_skip (source : Source) (h : source.skip = .ok ()) : source.Legible := by
  cases source with
  | missing next => cases h
  | null => trivial
  | bool value => trivial
  | misspelt defect => cases h
  | number value => trivial
  | misnumbered defect => cases h
  | string text => exact .inl h
  | list items => exact items.legible_of_skip h
  | object members => exact members.legible_of_skip h

theorem Items.legible_of_skip (items : Items) (h : items.skip = .ok ()) : items.Legible := by
  cases items with
  | close => trivial
  | stop next => cases h
  | item value rest =>
      rw [Items.skip] at h
      obtain ⟨_, hValue, hRest⟩ := exists_of_bind_eq_ok h
      exact ⟨value.legible_of_skip hValue, rest.legible_of_skip hRest⟩

theorem Members.legible_of_skip (members : Members) (h : members.skip = .ok ()) :
    members.Legible := by
  cases members with
  | close => trivial
  | stop next => cases h
  | keyless next => cases next <;> cases h
  | unpaired key next =>
      rw [Members.skip] at h
      obtain ⟨_, -, h⟩ := exists_of_bind_eq_ok h
      cases h
  | member key value rest =>
      rw [Members.skip] at h
      obtain ⟨_, hKey, h⟩ := exists_of_bind_eq_ok h
      obtain ⟨_, hValue, hRest⟩ := exists_of_bind_eq_ok h
      exact ⟨.inl hKey, value.legible_of_skip hValue, rest.legible_of_skip hRest⟩

end

/-- A decoder that reads nothing from a form with faults. -/
def Decoder.Checks {α : Type} (decode : Decoder α) : Prop :=
  ∀ levels source value, decode levels source = .ok value → source.Legible

namespace Decoder

theorem checks_string : string.Checks := by
  intro levels source value h
  cases source with
  | string text => exact .inr ⟨value, h⟩
  | _ => cases h

theorem checks_integer {α : Type} {kind : String} {ofInt? : Int → Option α} :
    (integer kind ofInt?).Checks := by
  intro levels source value h
  unfold integer at h
  split at h
  · trivial
  · cases h

end Decoder

namespace RecordFormat

variable {σ α β : Type} {format : RecordFormat σ α}

/-- A field that takes nothing from a form with faults. -/
def Checks (field : RecordField σ) : Prop :=
  ∀ levels source draft after, field.decode levels source draft = .ok after → source.Legible

/-- A field that checks its value checks every member under its name. -/
theorem checks_field {name : String} {decode : Decoder β} {get : σ → Option β} {set : β → σ → σ}
    (h : decode.Checks) : Checks (field name decode get set) := by
  intro levels source draft after hDecode
  obtain ⟨value, hValue, -⟩ := exists_of_map_eq_ok hDecode
  exact h levels source value hValue

/-- Where nothing is left over behind the items that were read, the list is closed. -/
theorem legible_of_surplus {items : Items} (h : surplus items = none) : items.Legible := by
  cases items with
  | close => trivial
  | stop next => cases next <;> cases h
  | item value rest => cases h

/-- A list is read as a record only if its items are legible and it is closed. -/
theorem legible_of_decodeItems {levels : Nat} {fields : List (RecordField σ)}
    (hFields : ∀ field ∈ fields, Checks field) {draft : σ} {items : Items} {record : α}
    (h : format.decodeItems levels fields draft items = .ok record) : items.Legible := by
  induction fields generalizing draft items with
  | nil =>
      unfold decodeItems at h
      split at h
      · rename_i hNone
        exact legible_of_surplus hNone
      · cases h
  | cons field fields ih =>
      obtain ⟨hField, hFields⟩ := List.forall_mem_cons.1 hFields
      cases items with
      | close => trivial
      | stop next => cases h
      | item value rest =>
          rw [decodeItems] at h
          split at h
          · cases h
          · obtain ⟨next, hValue, hRest⟩ := exists_of_bind_eq_ok h
            exact ⟨hField _ _ _ _ hValue, ih hFields hRest⟩

/-- A member is read as a field of the format or passed over. -/
theorem mem_fields_of_fieldFor {draft : σ} {key : Quoted} {field : RecordField σ}
    (h : format.fieldFor draft key = .ok (some field)) : field ∈ format.fields := by
  obtain ⟨name, -, h⟩ := exists_of_bind_eq_ok h
  split at h
  · cases h
  · rename_i found hFound
    split at h
    · cases h
    · obtain rfl := Option.some.inj (Except.ok.inj h)
      exact List.mem_of_find?_eq_some hFound

/-- An object is read as a record only if its members are legible and it is closed. -/
theorem legible_of_decodeMembers (hFields : ∀ field ∈ format.fields, Checks field) {levels : Nat}
    {draft : σ} (members : Members) {record : α}
    (h : format.decodeMembers levels draft members = .ok record) : members.Legible := by
  cases members with
  | close => trivial
  | stop next => cases h
  | keyless next => cases h
  | unpaired key next =>
      rw [decodeMembers] at h
      obtain ⟨_, -, h⟩ := exists_of_bind_eq_ok h
      cases h
  | member key value rest =>
      rw [decodeMembers] at h
      obtain ⟨found, hFound, h⟩ := exists_of_bind_eq_ok h
      obtain ⟨name, hName, hField⟩ := exists_of_bind_eq_ok hFound
      refine ⟨.inr ⟨name, hName⟩, ?_⟩
      cases found with
      | none =>
          obtain ⟨_, hValue, hRest⟩ := exists_of_bind_eq_ok h
          exact ⟨value.legible_of_skip hValue, legible_of_decodeMembers hFields rest hRest⟩
      | some field =>
          obtain ⟨next, hValue, hRest⟩ := exists_of_bind_eq_ok h
          have hMember := mem_fields_of_fieldFor hFound
          exact ⟨hFields field hMember _ _ _ _ hValue, legible_of_decodeMembers hFields rest hRest⟩

/-- A record is read only from a form without faults if its fields are. -/
theorem checks_decode (hFields : ∀ field ∈ format.fields, Checks field) :
    Decoder.Checks format.decode := by
  intro levels source record h
  cases source with
  | list items =>
      cases levels with
      | zero => cases h
      | succ levels => exact legible_of_decodeItems hFields h
  | object members =>
      cases levels with
      | zero => cases h
      | succ levels => exact legible_of_decodeMembers hFields members h
  | _ => cases levels <;> cases h

end RecordFormat

namespace Source

/-- A word without faults is there as a whole. -/
theorem eq_append_of_scanWord {meaning source : Source} {word text rest : List Char}
    (h : scanWord meaning word text = (source, rest)) (hLegible : source.Legible) :
    text = word ++ rest := by
  induction word generalizing text with
  | nil =>
      obtain ⟨-, rfl⟩ := Prod.mk.inj h
      rfl
  | cons c word ih =>
      cases text with
      | nil =>
          obtain ⟨rfl, -⟩ := Prod.mk.inj h
          exact hLegible.elim
      | cons d text =>
          rw [scanWord] at h
          split at h
          · rename_i hSame
            rw [hSame, ih h]
            rfl
          · obtain ⟨rfl, -⟩ := Prod.mk.inj h
            exact hLegible.elim

theorem exists_isNumber_of_scanNumber {source : Source} {text rest : List Char}
    (h : scanNumber text = (source, rest)) (hLegible : source.Legible) :
    ∃ own, IsNumber own ∧ text = own ++ rest := by
  unfold scanNumber at h
  split at h
  · rename_i numeral behind hScan
    obtain ⟨-, rfl⟩ := Prod.mk.inj h
    exact Numeral.exists_isNumber_of_scan hScan
  · obtain ⟨rfl, -⟩ := Prod.mk.inj h
    exact hLegible.elim

variable {fuel : Nat} {text rest : List Char}

/-- Behind an item without faults the list ends or goes on. -/
theorem scanItem_cases {items : Items} (h : scanItem (fuel + 1) text = (items, rest))
    (hLegible : items.Legible) :
    ∃ value behind, scanValue fuel text = (value, behind) ∧ value.Legible ∧
      (skipBlanks behind = ']' :: rest ∨ ∃ next others, skipBlanks behind = ',' :: next ∧
        scanItem fuel next = (others, rest) ∧ others.Legible) := by
  rw [scanItem] at h
  generalize hValue : scanValue fuel text = scanned at h
  obtain ⟨value, behind⟩ := scanned
  simp only at h
  split at h
  · obtain ⟨rfl, -⟩ := Prod.mk.inj h
    exact hLegible.2.elim
  rename_i c next hBehind
  split at h
  · rename_i hBracket
    obtain ⟨rfl, rfl⟩ := Prod.mk.inj h
    exact ⟨value, behind, rfl, hLegible.1, .inl (by rw [hBehind, hBracket])⟩
  split at h
  · rename_i hComma
    generalize hOthers : scanItem fuel next = scanned at h
    obtain ⟨rfl, rfl⟩ := Prod.mk.inj h
    exact ⟨value, behind, rfl, hLegible.1,
      .inr ⟨next, scanned.1, by rw [hBehind, hComma], hOthers, hLegible.2⟩⟩
  · obtain ⟨rfl, -⟩ := Prod.mk.inj h
    exact hLegible.2.elim

/-- A member without faults has a key, a colon and a value, and behind it the object ends or goes
on. -/
theorem scanMember_cases {members : Members} (h : scanMember (fuel + 1) text = (members, rest))
    (hLegible : members.Legible) :
    ∃ key value behindMark behindKey behindColon behind,
      skipBlanks text = '"' :: behindMark ∧ Quoted.scan behindMark = (key, behindKey) ∧
      key.Legible ∧ skipBlanks behindKey = ':' :: behindColon ∧
      scanValue fuel behindColon = (value, behind) ∧ value.Legible ∧
      (skipBlanks behind = '\x7d' :: rest ∨ ∃ next others, skipBlanks behind = ',' :: next ∧
        scanMember fuel next = (others, rest) ∧ others.Legible) := by
  rw [scanMember] at h
  -- Wherever the scan stops before the end of a member it leaves a fault, and no fault is legible.
  split at h
  · obtain ⟨rfl, -⟩ := Prod.mk.inj h
    exact hLegible.elim
  rename_i c behindMark hText
  split at h
  case isFalse =>
    obtain ⟨rfl, -⟩ := Prod.mk.inj h
    exact hLegible.elim
  rename_i hMark
  generalize hKey : Quoted.scan behindMark = scanned at h
  obtain ⟨key, behindKey⟩ := scanned
  simp only at h
  split at h
  · obtain ⟨rfl, -⟩ := Prod.mk.inj h
    exact hLegible.elim
  rename_i d behindColon hBehindKey
  split at h
  case isFalse =>
    obtain ⟨rfl, -⟩ := Prod.mk.inj h
    exact hLegible.elim
  rename_i hColon
  generalize hValue : scanValue fuel behindColon = scanned at h
  obtain ⟨value, behind⟩ := scanned
  simp only at h
  rw [hMark] at hText
  rw [hColon] at hBehindKey
  split at h
  · obtain ⟨rfl, -⟩ := Prod.mk.inj h
    exact hLegible.2.2.elim
  rename_i e next hBehind
  split at h
  · rename_i hBrace
    obtain ⟨rfl, rfl⟩ := Prod.mk.inj h
    rw [hBrace] at hBehind
    exact ⟨key, value, behindMark, behindKey, behindColon, behind, hText, hKey, hLegible.1,
      hBehindKey, hValue, hLegible.2.1, .inl hBehind⟩
  split at h
  · rename_i hComma
    generalize hOthers : scanMember fuel next = scanned at h
    obtain ⟨rfl, rfl⟩ := Prod.mk.inj h
    rw [hComma] at hBehind
    exact ⟨key, value, behindMark, behindKey, behindColon, behind, hText, hKey, hLegible.1,
      hBehindKey, hValue, hLegible.2.1, .inr ⟨next, scanned.1, hBehind, hOthers, hLegible.2.2⟩⟩
  · obtain ⟨rfl, -⟩ := Prod.mk.inj h
    exact hLegible.2.2.elim

end Source

mutual

/-- For a value without faults blanks and a text that keeps to the rules are taken off. -/
theorem exists_isJson_of_scanValue (fuel : Nat) {text rest : List Char} {source : Source}
    (h : Source.scanValue fuel text = (source, rest)) (hLegible : source.Legible) :
    ∃ own, IsJson own ∧ Source.skipBlanks text = own ++ rest := by
  cases fuel with
  | zero =>
      obtain ⟨rfl, -⟩ := Prod.mk.inj h
      exact hLegible.elim
  | succ fuel =>
      rw [Source.scanValue] at h
      cases hText : Source.skipBlanks text with
      | nil =>
          rw [hText] at h
          obtain ⟨rfl, -⟩ := Prod.mk.inj h
          exact hLegible.elim
      | cons c behind =>
          simp only [hText] at h
          -- The first character decides what kind of value this is.
          split at h
          · rename_i hBracket
            generalize hScan : Source.scanItems fuel behind = scanned at h
            obtain ⟨rfl, rfl⟩ := Prod.mk.inj h
            obtain ⟨pieces, own, hOwn, hPieces, rfl⟩ :=
              exists_enclosed_of_scanItems fuel hScan hLegible
            exact ⟨'[' :: own, .list hOwn hPieces, by rw [hBracket]; rfl⟩
          split at h
          · rename_i hBrace
            generalize hScan : Source.scanMembers fuel behind = scanned at h
            obtain ⟨rfl, rfl⟩ := Prod.mk.inj h
            obtain ⟨members, pieces, own, hPieces, hOwn, hKeys, hValues, rfl⟩ :=
              exists_enclosed_of_scanMembers fuel hScan hLegible
            exact ⟨'\x7b' :: own, .object hPieces hOwn hKeys hValues, by rw [hBrace]; rfl⟩
          split at h
          · rename_i hMark
            generalize hScan : Quoted.scan behind = scanned at h
            obtain ⟨rfl, rfl⟩ := Prod.mk.inj h
            obtain ⟨body, hBody, rfl⟩ := Quoted.isBody_of_legible_scan hScan hLegible
            exact ⟨'"' :: (body ++ ['"']), .string hBody, by simp [hMark]⟩
          split at h
          · rename_i hLetter
            exact ⟨_, .null, by rw [hLetter, Source.eq_append_of_scanWord h hLegible]; rfl⟩
          split at h
          · rename_i hLetter
            exact ⟨_, .true, by rw [hLetter, Source.eq_append_of_scanWord h hLegible]; rfl⟩
          split at h
          · rename_i hLetter
            exact ⟨_, .false, by rw [hLetter, Source.eq_append_of_scanWord h hLegible]; rfl⟩
          split at h
          · obtain ⟨own, hOwn, hSame⟩ := Source.exists_isNumber_of_scanNumber h hLegible
            exact ⟨own, .number hOwn, hSame⟩
          · obtain ⟨rfl, -⟩ := Prod.mk.inj h
            exact hLegible.elim

/-- Behind an opening bracket, legible items are pieces between brackets. -/
theorem exists_enclosed_of_scanItems (fuel : Nat) {text rest : List Char} {items : Items}
    (h : Source.scanItems fuel text = (items, rest)) (hLegible : items.Legible) :
    ∃ pieces own, Enclosed '[' ']' pieces ('[' :: own) ∧ (∀ piece ∈ pieces, IsJson piece) ∧
      text = own ++ rest := by
  cases fuel with
  | zero =>
      obtain ⟨rfl, -⟩ := Prod.mk.inj h
      exact hLegible.elim
  | succ fuel =>
      obtain ⟨blanks, hBlanks, hText⟩ := Source.exists_skipBlanks text
      rw [Source.scanItems] at h
      generalize Source.skipBlanks text = behind at h hText
      cases behind with
      | nil =>
          obtain ⟨rfl, -⟩ := Prod.mk.inj h
          exact hLegible.elim
      | cons c behind =>
          simp only at h
          split at h
          · rename_i hBracket
            obtain ⟨-, rfl⟩ := Prod.mk.inj h
            exact ⟨[], blanks ++ [']'], .none hBlanks, by simp, by simp [hText, hBracket]⟩
          · obtain ⟨pieces, inner, hInner, hPieces, hBehind⟩ :=
              exists_separated_of_scanItem fuel h hLegible
            refine ⟨pieces, blanks ++ (inner ++ [']']), ?_, hPieces, by simp [hText, hBehind]⟩
            rw [← List.append_assoc]
            exact .some (hInner.append_blanks hBlanks)

theorem exists_separated_of_scanItem (fuel : Nat) {text rest : List Char} {items : Items}
    (h : Source.scanItem fuel text = (items, rest)) (hLegible : items.Legible) :
    ∃ pieces inner, Separated pieces inner ∧ (∀ piece ∈ pieces, IsJson piece) ∧
      text = inner ++ ']' :: rest := by
  cases fuel with
  | zero =>
      obtain ⟨rfl, -⟩ := Prod.mk.inj h
      exact hLegible.elim
  | succ fuel =>
      obtain ⟨value, behind, hValue, hSound, hMore⟩ := Source.scanItem_cases h hLegible
      obtain ⟨own, hOwn, hSkip⟩ := exists_isJson_of_scanValue fuel hValue hSound
      obtain ⟨before, hBefore, hText⟩ := Source.exists_skipBlanks text
      obtain ⟨after, hAfter, hBehind⟩ := Source.exists_skipBlanks behind
      rw [hSkip, hBehind] at hText
      rcases hMore with hClose | ⟨next, others, hComma, hOthers, hSound⟩
      · exact ⟨[own], _, .last (.blanks hBefore hAfter), by simpa using hOwn,
          by simp [hText, hClose]⟩
      · obtain ⟨pieces, inner, hInner, hPieces, rfl⟩ :=
          exists_separated_of_scanItem fuel hOthers hSound
        exact ⟨own :: pieces, _, .more (.blanks hBefore hAfter) hInner,
          List.forall_mem_cons.2 ⟨hOwn, hPieces⟩, by simp [hText, hComma]⟩

/-- Behind an opening brace, legible members are pieces between braces. -/
theorem exists_enclosed_of_scanMembers (fuel : Nat) {text rest : List Char} {members : Members}
    (h : Source.scanMembers fuel text = (members, rest)) (hLegible : members.Legible) :
    ∃ (named : List (List Char × List Char)) (pieces : List (List Char)) (own : List Char),
      List.Forall₂ (fun member piece => MemberText member.1 member.2 piece) named pieces ∧
      Enclosed '\x7b' '\x7d' pieces ('\x7b' :: own) ∧ (∀ member ∈ named, IsBody member.1) ∧
      (∀ member ∈ named, IsJson member.2) ∧ text = own ++ rest := by
  cases fuel with
  | zero =>
      obtain ⟨rfl, -⟩ := Prod.mk.inj h
      exact hLegible.elim
  | succ fuel =>
      obtain ⟨blanks, hBlanks, hText⟩ := Source.exists_skipBlanks text
      rw [Source.scanMembers] at h
      generalize Source.skipBlanks text = behind at h hText
      cases behind with
      | nil =>
          obtain ⟨rfl, -⟩ := Prod.mk.inj h
          exact hLegible.elim
      | cons c behind =>
          simp only at h
          split at h
          · rename_i hBrace
            obtain ⟨-, rfl⟩ := Prod.mk.inj h
            exact ⟨[], [], blanks ++ ['\x7d'], .nil, .none hBlanks, by simp, by simp,
              by simp [hText, hBrace]⟩
          · obtain ⟨named, pieces, inner, hNamed, hInner, hKeys, hValues, hBehind⟩ :=
              exists_separated_of_scanMember fuel h hLegible
            refine ⟨named, pieces, blanks ++ (inner ++ ['\x7d']), hNamed, ?_, hKeys, hValues,
              by simp [hText, hBehind]⟩
            rw [← List.append_assoc]
            exact .some (hInner.append_blanks hBlanks)

theorem exists_separated_of_scanMember (fuel : Nat) {text rest : List Char} {members : Members}
    (h : Source.scanMember fuel text = (members, rest)) (hLegible : members.Legible) :
    ∃ (named : List (List Char × List Char)) (pieces : List (List Char)) (inner : List Char),
      List.Forall₂ (fun member piece => MemberText member.1 member.2 piece) named pieces ∧
      Separated pieces inner ∧ (∀ member ∈ named, IsBody member.1) ∧
      (∀ member ∈ named, IsJson member.2) ∧ text = inner ++ '\x7d' :: rest := by
  cases fuel with
  | zero =>
      obtain ⟨rfl, -⟩ := Prod.mk.inj h
      exact hLegible.elim
  | succ fuel =>
      obtain ⟨key, value, behindMark, behindKey, behindColon, behind, hMark, hKey, hKeySound, hColon,
        hValue, hSound, hMore⟩ := Source.scanMember_cases h hLegible
      obtain ⟨body, hBody, rfl⟩ := Quoted.isBody_of_legible_scan hKey hKeySound
      obtain ⟨own, hOwn, hSkip⟩ := exists_isJson_of_scanValue fuel hValue hSound
      obtain ⟨before, hBefore, hText⟩ := Source.exists_skipBlanks text
      obtain ⟨beforeColon, hBeforeColon, hBehindKey⟩ := Source.exists_skipBlanks behindKey
      obtain ⟨afterColon, hAfterColon, hBehindColon⟩ := Source.exists_skipBlanks behindColon
      obtain ⟨after, hAfter, hBehind⟩ := Source.exists_skipBlanks behind
      rw [hMark, hBehindKey, hColon, hBehindColon, hSkip, hBehind] at hText
      have hMember : MemberText body own _ := .colon hBeforeColon hAfterColon
      rcases hMore with hClose | ⟨next, others, hComma, hOthers, hSound⟩
      · exact ⟨[(body, own)], _, _, .cons hMember .nil, .last (.blanks hBefore hAfter),
          by simpa using hBody, by simpa using hOwn, by simp [hText, hClose]⟩
      · obtain ⟨named, pieces, inner, hNamed, hInner, hKeys, hValues, rfl⟩ :=
          exists_separated_of_scanMember fuel hOthers hSound
        exact ⟨(body, own) :: named, _, _, .cons hMember hNamed,
          .more (.blanks hBefore hAfter) hInner, List.forall_mem_cons.2 ⟨hBody, hKeys⟩,
          List.forall_mem_cons.2 ⟨hOwn, hValues⟩, by simp [hText, hComma]⟩

end

/-- A text that is scanned as a form without faults keeps to the rules. -/
theorem Scans.isJson {text : List Char} {source : Source} (h : Scans text source)
    (hLegible : source.Legible) : IsJson text := by
  obtain ⟨own, hOwn, hSkip⟩ := exists_isJson_of_scanValue _ h.scan hLegible
  obtain ⟨c, behind, rfl, hBlank, -⟩ := h.first
  rw [Source.skipBlanks_cons hBlank, List.append_nil] at hSkip
  rwa [hSkip]

/-- A written value keeps to the rules. -/
theorem isJson_render {layout : Layout} (hLayout : layout.AddsBlanks) (level : Nat) {value : Json}
    (h : value.isIntegral = true) : IsJson (render layout level value) :=
  (scans_render hLayout level value h).isJson (value.toSource.legible_of_skip (skip_toSource value))

/-- A written list is the text of a list of the written items. -/
theorem listText_render {layout : Layout} (hLayout : layout.AddsBlanks) (level : Nat)
    {items : List Json} (h : (array items).isIntegral = true) :
    ListText (items.map (render layout (level + 1))) (render layout level (.array items)) where
  enclosed := enclosed_render hLayout level items
  items := List.forall_mem_map.2 fun item hItem =>
    isJson_render hLayout (level + 1) (areIntegralItems_iff.1 h item hItem)

/-- A written object is the text of an object with the written members. -/
theorem objectText_render {layout : Layout} (hLayout : layout.AddsBlanks) (level : Nat)
    {members : List (String × Json)} (h : (object members).isIntegral = true) :
    ObjectText (members.map fun member => (member.1, render layout (level + 1) member.2))
      (render layout level (.object members)) where
  enclosed := ⟨_, enclosed_renderMember hLayout level members, List.forall₂_map_left_iff.2
    (List.forall₂_map_right_iff.2 (List.forall₂_same.2 fun member _ =>
      ⟨_, spells_escape _, memberText_renderMember hLayout (level + 1) member⟩))⟩
  values := List.forall_mem_map.2 fun member hMember =>
    isJson_render hLayout (level + 1) (areIntegralMembers_iff.1 h member hMember)

/-- A saved text is that of the value, without blanks around it. -/
theorem padded_pretty (value : Json) : Padded (render .pretty 0 value) value.pretty.toList := by
  rw [pretty, String.toList_ofList]
  have hPadded : Padded (render .pretty 0 value) _ := .blanks blank_nil blank_nil
  simpa using hPadded

/-- Only texts that keep to the rules are read. -/
theorem isDocument_of_decodeText {α : Type} {decode : Decoder α} (hDecode : decode.Checks)
    {levels : Nat} {text : String} {value : α} (h : decodeText decode levels text = .ok value) :
    IsDocument text := by
  rw [decodeText] at h
  generalize hScan : Source.scan text.toList = scanned at h
  obtain ⟨source, after⟩ := scanned
  obtain ⟨read, hRead, h⟩ := exists_of_bind_eq_ok h
  split at h
  · rename_i hNone
    obtain ⟨own, hOwn, hSkip⟩ := exists_isJson_of_scanValue _ hScan (hDecode _ _ _ hRead)
    obtain ⟨before, hBefore, hText⟩ := Source.exists_skipBlanks text.toList
    have hAfter : Blank after := List.dropWhile_eq_nil_iff.1 (List.isEmpty_iff.1 hNone)
    refine ⟨own, hOwn, ?_⟩
    rw [hText, hSkip]
    exact .blanks hBefore hAfter
  · cases h

end NoteForm.Json
