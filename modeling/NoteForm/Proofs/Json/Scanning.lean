import NoteForm.Json.Text
import NoteForm.Proofs.Json.Bodies
import NoteForm.Proofs.Json.Source

/-! Every text that keeps to the rules is scanned to its end, as a form in which nothing is wrong. -/
namespace NoteForm.Json

def Items.ofList : List Source → Items
  | [] => .close
  | value :: rest => .item value (ofList rest)

def Members.ofList : List (Quoted × Source) → Members
  | [] => .close
  | (key, value) :: rest => .member key value (ofList rest)

/-- The form of a text. -/
def form (text : List Char) : Source := (Source.scan text).1

/-- Whether a text is scanned as this form wherever it stands, if what follows does not continue it. -/
structure Scans (text : List Char) (source : Source) : Prop where
  first : ∃ c behind, text = c :: behind ∧ Source.isBlank c = false ∧ c ≠ ']'
  scanValue : ∀ {fuel : Nat} {rest : List Char}, 3 * text.length < fuel → ¬ContinuesNumber rest →
    Source.scanValue fuel (text ++ rest) = (source, rest)

/-- A member whose key and value are scanned as these. -/
inductive ScansMember : List Char → Quoted × Source → Prop where
  | member {key value piece : List Char} {source : Source} (hKey : IsBody key)
      (hText : MemberText key value piece) (hValue : Scans value source) :
      ScansMember piece (.ofBody key, source)

variable {text : List Char} {source : Source}

/-- A text that scans by itself is scanned to its end. -/
theorem Scans.scan (h : Scans text source) : Source.scan text = (source, []) := by
  have hScan := h.scanValue (Nat.lt_succ_self _) not_continuesNumber_nil
  rwa [List.append_nil] at hScan

theorem Scans.form_eq (h : Scans text source) : form text = source :=
  congrArg Prod.fst h.scan

theorem Scans.scans_form (h : Scans text source) : Scans text (form text) := by
  rwa [h.form_eq]

/-- A value that takes a single step of the scan. -/
theorem Scans.of_step (hFirst : ∃ c behind, text = c :: behind ∧ Source.isBlank c = false ∧ c ≠ ']')
    (hStep : ∀ fuel rest, ¬ContinuesNumber rest →
      Source.scanValue (fuel + 1) (text ++ rest) = (source, rest)) : Scans text source where
  first := hFirst
  scanValue := by
    intro fuel rest hFuel hRest
    obtain ⟨fuel, rfl⟩ : ∃ less, fuel = less + 1 := ⟨fuel - 1, by omega⟩
    exact hStep fuel rest hRest

theorem scans_null : Scans ['n', 'u', 'l', 'l'] .null :=
  .of_step ⟨_, _, rfl, by decide, by decide⟩ fun _ _ _ => rfl

theorem scans_true : Scans ['t', 'r', 'u', 'e'] (.bool true) :=
  .of_step ⟨_, _, rfl, by decide, by decide⟩ fun _ _ _ => rfl

theorem scans_false : Scans ['f', 'a', 'l', 's', 'e'] (.bool false) :=
  .of_step ⟨_, _, rfl, by decide, by decide⟩ fun _ _ _ => rfl

/-- Every text that keeps to the rules of numbers is scanned as a number, in range or not. -/
theorem scans_number (h : IsNumber text) : ∃ value, Scans text (.number value) := by
  obtain ⟨numeral, hScan⟩ := Numeral.exists_scan h
  obtain ⟨c, behind, rfl, hFirst⟩ := Source.exists_startsNumber h
  refine ⟨numeral.number?, .of_step ⟨c, behind, rfl, hFirst.not_isBlank, hFirst.ne (by decide)⟩ ?_⟩
  intro fuel rest hRest
  rw [List.cons_append, Source.scanValue_of_startsNumber hFirst, Source.scanNumber,
    ← List.cons_append, hScan rest hRest]

theorem scans_ofInt {value : Int} (lower : -0x8000000000000000 ≤ value)
    (upper : value < 0x10000000000000000) :
    Scans (Decimal.ofInt value) (.number (some (.integer value lower upper))) := by
  obtain ⟨c, behind, hText, hFirst⟩ := Source.ofInt_eq_cons value
  refine .of_step ⟨c, behind, hText, hFirst.not_isBlank, hFirst.ne (by decide)⟩ ?_
  intro fuel rest hRest
  rw [← Source.scanNumber_ofInt lower upper hRest, hText, List.cons_append,
    Source.scanValue_of_startsNumber hFirst]

theorem scans_string {body : List Char} (h : IsBody body) :
    Scans ('"' :: (body ++ ['"'])) (.string (.ofBody body)) := by
  refine .of_step ⟨_, _, rfl, by decide, by decide⟩ fun fuel rest _ => ?_
  rw [List.cons_append, List.append_assoc, List.singleton_append, Source.scanValue,
    Source.skipBlanks_cons (by decide)]
  simp [Quoted.scan_of_isBody h]

namespace Source

/-- A text with blanks around it is scanned up to the character that follows it. -/
theorem scanValue_of_padded {piece : List Char} {c : Char} (hText : Padded piece text)
    (hScans : Scans piece source) {fuel : Nat} (hFuel : 3 * text.length < fuel)
    (hBlank : isBlank c = false) (hNext : ¬ContinuesNumber [c]) (rest : List Char) :
    ∃ behind, scanValue fuel (text ++ c :: rest) = (source, behind) ∧
      skipBlanks behind = c :: rest := by
  cases hText with
  | @blanks before after hBefore hAfter =>
      obtain ⟨fuel, rfl⟩ : ∃ less, fuel = less + 1 := ⟨fuel - 1, by omega⟩
      have hBehind := skipBlanks_append_cons hAfter hBlank rest
      refine ⟨after ++ c :: rest, ?_, hBehind⟩
      simp only [List.append_assoc]
      rw [scanValue_append hBefore]
      apply hScans.scanValue
      · simp only [List.length_append] at hFuel
        omega
      · apply not_continuesNumber_of_skipBlanks hBehind
        rintro ⟨d, behind, hText, hFirst⟩
        obtain ⟨rfl, -⟩ := List.cons.inj hText
        exact hNext ⟨_, [], rfl, hFirst⟩

/-- The items of a list are scanned one after the other up to its bracket. -/
theorem scanItem_of_separated {pieces : List (List Char)} {sources : List Source}
    (hText : Separated pieces text) (hScans : List.Forall₂ Scans pieces sources) {fuel : Nat}
    (hFuel : 3 * text.length < fuel) (rest : List Char) :
    scanItem (fuel + 1) (text ++ ']' :: rest) = (.ofList sources, rest) := by
  induction hText generalizing sources fuel with
  | last hPadded =>
      obtain ⟨source, none, hSource, hNone, rfl⟩ := List.forall₂_cons_left_iff.1 hScans
      obtain rfl := List.forall₂_nil_left_iff.1 hNone
      obtain ⟨behind, hValue, hBehind⟩ := scanValue_of_padded hPadded hSource hFuel (c := ']')
        (by decide) (not_continuesNumber_cons (by decide) []) rest
      exact scanItem_of_close hValue hBehind
  | @more piece text behind pieces hPadded _ ih =>
      obtain ⟨source, others, hSource, hOthers, rfl⟩ := List.forall₂_cons_left_iff.1 hScans
      simp only [List.length_append, List.length_cons] at hFuel
      obtain ⟨fuel, rfl⟩ : ∃ less, fuel = less + 1 := ⟨fuel - 1, by omega⟩
      have hPiece : 3 * text.length < fuel + 1 := by omega
      obtain ⟨next, hValue, hNext⟩ := scanValue_of_padded hPadded hSource hPiece (c := ',')
        (by decide) (not_continuesNumber_cons (by decide) []) (behind ++ ']' :: rest)
      rw [List.append_assoc, List.cons_append]
      exact scanItem_of_comma hValue hNext (ih hOthers (by omega))

/-- A member with blanks around it is scanned up to the character that follows it. -/
theorem scanMember_of_padded {piece : List Char} {member : Quoted × Source} {c : Char}
    (hText : Padded piece text) (hMember : ScansMember piece member) {fuel : Nat}
    (hFuel : 3 * text.length < fuel) (hBlank : isBlank c = false) (hNext : ¬ContinuesNumber [c])
    (rest : List Char) :
    ∃ behindMark behindKey behindColon behind,
      skipBlanks (text ++ c :: rest) = '"' :: behindMark ∧
        Quoted.scan behindMark = (member.1, behindKey) ∧
        skipBlanks behindKey = ':' :: behindColon ∧
        scanValue fuel behindColon = (member.2, behind) ∧ skipBlanks behind = c :: rest := by
  cases hMember with
  | @member key value piece source hKey hMember hValue =>
      cases hText with
      | @blanks before after hBefore hAfter =>
          cases hMember with
          | @colon beforeColon afterColon hBeforeColon hAfterColon =>
              have hLess : 3 * (afterColon ++ (value ++ after)).length < fuel := by
                simp only [List.length_append, List.length_cons] at hFuel ⊢
                omega
              obtain ⟨behind, hScan, hBehind⟩ :=
                scanValue_of_padded (.blanks hAfterColon hAfter) hValue hLess hBlank hNext rest
              refine ⟨_, _, _, behind, ?_, Quoted.scan_of_isBody hKey _,
                skipBlanks_append_cons hBeforeColon (by decide) _, hScan, hBehind⟩
              simp only [List.append_assoc, List.cons_append]
              exact skipBlanks_append_cons hBefore (by decide) _

/-- The members of an object are scanned one after the other up to its brace. -/
theorem scanMember_of_separated {pieces : List (List Char)} {members : List (Quoted × Source)}
    (hText : Separated pieces text) (hMembers : List.Forall₂ ScansMember pieces members)
    {fuel : Nat} (hFuel : 3 * text.length < fuel) (rest : List Char) :
    scanMember (fuel + 1) (text ++ '\x7d' :: rest) = (.ofList members, rest) := by
  induction hText generalizing members fuel with
  | last hPadded =>
      obtain ⟨member, none, hMember, hNone, rfl⟩ := List.forall₂_cons_left_iff.1 hMembers
      obtain rfl := List.forall₂_nil_left_iff.1 hNone
      obtain ⟨_, _, _, _, hMark, hKey, hColon, hValue, hBehind⟩ :=
        scanMember_of_padded hPadded hMember hFuel (c := '\x7d') (by decide)
          (not_continuesNumber_cons (by decide) []) rest
      exact scanMember_of_close hMark hKey hColon hValue hBehind
  | @more piece text behind pieces hPadded _ ih =>
      obtain ⟨member, others, hMember, hOthers, rfl⟩ := List.forall₂_cons_left_iff.1 hMembers
      simp only [List.length_append, List.length_cons] at hFuel
      obtain ⟨fuel, rfl⟩ : ∃ less, fuel = less + 1 := ⟨fuel - 1, by omega⟩
      have hPiece : 3 * text.length < fuel + 1 := by omega
      obtain ⟨_, _, _, _, hMark, hKey, hColon, hValue, hBehind⟩ :=
        scanMember_of_padded hPadded hMember hPiece (c := ',') (by decide)
          (not_continuesNumber_cons (by decide) []) (behind ++ '\x7d' :: rest)
      rw [List.append_assoc, List.cons_append]
      exact scanMember_of_comma hMark hKey hColon hValue hBehind (ih hOthers (by omega))

/-- A text with separated pieces begins like the first of them, but for blanks. -/
theorem exists_skipBlanks_of_separated {pieces : List (List Char)} {p : Char → Prop}
    (hText : Separated pieces text)
    (hFirst : ∀ piece ∈ pieces.head?, ∃ c behind, piece = c :: behind ∧ isBlank c = false ∧ p c)
    (rest : List Char) : ∃ c behind, skipBlanks (text ++ rest) = c :: behind ∧ p c := by
  have hPadded {piece text : List Char} (hPadded : Padded piece text)
      (hPiece : ∃ c behind, piece = c :: behind ∧ isBlank c = false ∧ p c) (rest : List Char) :
      ∃ c behind, skipBlanks (text ++ rest) = c :: behind ∧ p c := by
    obtain ⟨c, behind, rfl, hBlank, hp⟩ := hPiece
    cases hPadded with
    | blanks hBefore hAfter =>
        simp only [List.append_assoc, List.cons_append]
        exact ⟨c, _, skipBlanks_append_cons hBefore hBlank _, hp⟩
  cases hText with
  | last hLast => exact hPadded hLast (hFirst _ rfl) rest
  | more hMore _ =>
      rw [List.append_assoc]
      exact hPadded hMore (hFirst _ rfl) _

/-- A list is scanned item by item. -/
theorem scanItems_of_enclosed {pieces : List (List Char)} {sources : List Source}
    (hText : Enclosed '[' ']' pieces text) (hScans : List.Forall₂ Scans pieces sources)
    {fuel : Nat} (hFuel : 3 * text.length < fuel + 1) (rest : List Char) :
    ∃ behind, text ++ rest = '[' :: behind ∧ scanItems fuel behind = (.ofList sources, rest) := by
  cases hText with
  | @none blanks hBlanks =>
      obtain rfl := List.forall₂_nil_left_iff.1 hScans
      simp only [List.length_append, List.length_cons] at hFuel
      obtain ⟨fuel, rfl⟩ : ∃ less, fuel = less + 1 := ⟨fuel - 1, by omega⟩
      refine ⟨blanks ++ ']' :: rest, by simp, ?_⟩
      rw [scanItems, skipBlanks_append_cons hBlanks (by decide)]
      rfl
  | @some pieces inner hInner =>
      simp only [List.length_append, List.length_cons] at hFuel
      -- The inside of the bracket and its first item take a level each before a character is taken.
      obtain ⟨fuel, rfl⟩ : ∃ less, fuel = less + 3 := ⟨fuel - 3, by omega⟩
      have hFirst : ∀ piece ∈ pieces.head?,
          ∃ c behind, piece = c :: behind ∧ isBlank c = false ∧ c ≠ ']' := by
        intro piece hPiece
        cases hScans with
        | nil => cases hPiece
        | cons hSource _ =>
            obtain rfl := Option.some.inj hPiece
            exact hSource.first
      obtain ⟨c, behind, hSkip, hBracket⟩ :=
        exists_skipBlanks_of_separated hInner hFirst (']' :: rest)
      have hLess : 3 * inner.length < fuel + 1 := by omega
      have hItems := scanItem_of_separated hInner hScans hLess rest
      refine ⟨inner ++ ']' :: rest, by simp, ?_⟩
      rw [scanItem, ← scanValue_skipBlanks, hSkip, ← scanItem] at hItems
      rw [scanItems, hSkip]
      exact (if_neg hBracket).trans hItems

/-- An object is scanned member by member. -/
theorem scanMembers_of_enclosed {pieces : List (List Char)} {members : List (Quoted × Source)}
    (hText : Enclosed '\x7b' '\x7d' pieces text)
    (hMembers : List.Forall₂ ScansMember pieces members) {fuel : Nat}
    (hFuel : 3 * text.length < fuel + 1) (rest : List Char) :
    ∃ behind, text ++ rest = '\x7b' :: behind ∧
      scanMembers fuel behind = (.ofList members, rest) := by
  cases hText with
  | @none blanks hBlanks =>
      obtain rfl := List.forall₂_nil_left_iff.1 hMembers
      simp only [List.length_append, List.length_cons] at hFuel
      obtain ⟨fuel, rfl⟩ : ∃ less, fuel = less + 1 := ⟨fuel - 1, by omega⟩
      refine ⟨blanks ++ '\x7d' :: rest, by simp, ?_⟩
      rw [scanMembers, skipBlanks_append_cons hBlanks (by decide)]
      rfl
  | @some pieces inner hInner =>
      simp only [List.length_append, List.length_cons] at hFuel
      obtain ⟨fuel, rfl⟩ : ∃ less, fuel = less + 3 := ⟨fuel - 3, by omega⟩
      have hFirst : ∀ piece ∈ pieces.head?,
          ∃ c behind, piece = c :: behind ∧ isBlank c = false ∧ c ≠ '\x7d' := by
        intro piece hPiece
        cases hMembers with
        | nil => cases hPiece
        | cons hMember _ =>
            obtain rfl := Option.some.inj hPiece
            obtain ⟨-, ⟨-, -⟩, -⟩ := hMember
            exact ⟨_, _, rfl, by decide, by decide⟩
      obtain ⟨c, behind, hSkip, hBrace⟩ :=
        exists_skipBlanks_of_separated hInner hFirst ('\x7d' :: rest)
      have hLess : 3 * inner.length < fuel + 1 := by omega
      have hAll := scanMember_of_separated hInner hMembers hLess rest
      refine ⟨inner ++ '\x7d' :: rest, by simp, ?_⟩
      rw [scanMember, ← skipBlanks_skipBlanks, hSkip, ← scanMember] at hAll
      rw [scanMembers, hSkip]
      exact (if_neg hBrace).trans hAll

end Source

/-- A list is scanned item by item up to its bracket, whatever blanks stand between them. -/
theorem scans_list {pieces : List (List Char)} {sources : List Source}
    (hText : Enclosed '[' ']' pieces text) (hScans : List.Forall₂ Scans pieces sources) :
    Scans text (.list (.ofList sources)) where
  first := by cases hText <;> exact ⟨_, _, rfl, by decide, by decide⟩
  scanValue := by
    intro fuel rest hFuel _
    obtain ⟨fuel, rfl⟩ : ∃ less, fuel = less + 1 := ⟨fuel - 1, by omega⟩
    obtain ⟨behind, hBehind, hItems⟩ := Source.scanItems_of_enclosed hText hScans hFuel rest
    rw [hBehind]
    exact Source.scanValue_list hItems

/-- An object is scanned member by member up to its brace, whatever blanks stand between them. -/
theorem scans_object {pieces : List (List Char)} {members : List (Quoted × Source)}
    (hText : Enclosed '\x7b' '\x7d' pieces text)
    (hMembers : List.Forall₂ ScansMember pieces members) :
    Scans text (.object (.ofList members)) where
  first := by cases hText <;> exact ⟨_, _, rfl, by decide, by decide⟩
  scanValue := by
    intro fuel rest hFuel _
    obtain ⟨fuel, rfl⟩ : ∃ less, fuel = less + 1 := ⟨fuel - 1, by omega⟩
    obtain ⟨behind, hBehind, hScan⟩ := Source.scanMembers_of_enclosed hText hMembers hFuel rest
    rw [hBehind]
    exact Source.scanValue_object hScan

/-- Nothing is wrong with a list if nothing is wrong with its items. -/
theorem Items.skip_ofList {sources : List Source} (h : ∀ source ∈ sources, source.skip = .ok ()) :
    (ofList sources).skip = .ok () := by
  induction sources with
  | nil => rfl
  | cons source rest ih =>
      obtain ⟨hSource, hRest⟩ := List.forall_mem_cons.1 h
      simp only [ofList, skip, hSource, ih hRest]
      rfl

theorem Members.skip_ofList {members : List (Quoted × Source)}
    (h : ∀ member ∈ members, member.1.skim = .ok () ∧ member.2.skip = .ok ()) :
    (ofList members).skip = .ok () := by
  induction members with
  | nil => rfl
  | cons member rest ih =>
      obtain ⟨⟨hKey, hValue⟩, hRest⟩ := List.forall_mem_cons.1 h
      simp only [ofList, skip, hKey, hValue, ih hRest]
      rfl

/-- The key and the value of a member as they are scanned. -/
def scannedMember (member : List Char × List Char) : Quoted × Source :=
  (.ofBody member.1, form member.2)

/-- A member is scanned as its key and the form of its value. -/
theorem forall₂_scansMember {members : List (List Char × List Char)} {pieces : List (List Char)}
    (hPieces : List.Forall₂ (fun member piece => MemberText member.1 member.2 piece) members pieces)
    (hKeys : ∀ member ∈ members, IsBody member.1)
    (hValues : ∀ member ∈ members, Scans member.2 (form member.2)) :
    List.Forall₂ ScansMember pieces (members.map scannedMember) := by
  induction hPieces with
  | nil => exact .nil
  | cons hPiece _ ih =>
      obtain ⟨hKey, hKeys⟩ := List.forall_mem_cons.1 hKeys
      obtain ⟨hValue, hValues⟩ := List.forall_mem_cons.1 hValues
      exact .cons (.member hKey hPiece hValue) (ih hKeys hValues)

/-- A text that keeps to the rules has a form with which nothing is wrong. -/
theorem IsJson.scans_and_skip (h : IsJson text) :
    Scans text (form text) ∧ (form text).skip = .ok () := by
  have hForm {text : List Char} {source : Source} (hScans : Scans text source)
      (hSkip : source.skip = .ok ()) : Scans text (form text) ∧ (form text).skip = .ok () :=
    ⟨hScans.scans_form, by rwa [hScans.form_eq]⟩
  induction h with
  | null => exact hForm scans_null rfl
  | true => exact hForm scans_true rfl
  | false => exact hForm scans_false rfl
  | number hNumber =>
      obtain ⟨value, hScans⟩ := scans_number hNumber
      exact hForm hScans rfl
  | string hBody => exact hForm (scans_string hBody) (Quoted.skim_ofBody hBody)
  | @list items text hText _ ih =>
      have hItems : List.Forall₂ Scans items (items.map form) :=
        List.forall₂_map_right_iff.2 (List.forall₂_same.2 fun item hItem => (ih item hItem).1)
      refine hForm (scans_list hText hItems) (Items.skip_ofList ?_)
      exact List.forall_mem_map.2 fun item hItem => (ih item hItem).2
  | object hPieces hText hKeys _ ih =>
      have hMembers := forall₂_scansMember hPieces hKeys fun member hMember => (ih member hMember).1
      refine hForm (scans_object hText hMembers) (Members.skip_ofList ?_)
      exact List.forall_mem_map.2 fun member hMember =>
        ⟨Quoted.skim_ofBody (hKeys member hMember), (ih member hMember).2⟩

theorem IsJson.scans (h : IsJson text) : Scans text (form text) := h.scans_and_skip.1

theorem IsJson.skip_form (h : IsJson text) : (form text).skip = .ok () := h.scans_and_skip.2

/-- The keys of an object spell the names of its members. -/
theorem ObjectText.exists_keys {members : List (String × List Char)} (h : ObjectText members text) :
    ∃ (keyed : List (List Char × List Char)) (pieces : List (List Char)),
      List.Forall₂ (fun member entry => Spells member.1.toList entry.1 ∧ entry.2 = member.2) members
        keyed ∧
      List.Forall₂ (fun entry piece => MemberText entry.1 entry.2 piece) keyed pieces ∧
      Enclosed '\x7b' '\x7d' pieces text ∧ (∀ entry ∈ keyed, IsBody entry.1) ∧
      ∀ entry ∈ keyed, IsJson entry.2 := by
  obtain ⟨⟨pieces, hText, hPieces⟩, hValues⟩ := h
  suffices hKeyed : ∃ keyed : List (List Char × List Char),
      List.Forall₂ (fun member entry => Spells member.1.toList entry.1 ∧ entry.2 = member.2) members
        keyed ∧
      List.Forall₂ (fun entry piece => MemberText entry.1 entry.2 piece) keyed pieces ∧
      (∀ entry ∈ keyed, IsBody entry.1) ∧ ∀ entry ∈ keyed, IsJson entry.2 by
    obtain ⟨keyed, hNames, hKeyed, hKeys, hValues⟩ := hKeyed
    exact ⟨keyed, pieces, hNames, hKeyed, hText, hKeys, hValues⟩
  clear hText
  induction hPieces with
  | nil => exact ⟨[], .nil, .nil, by simp, by simp⟩
  | @cons member piece members pieces hMember _ ih =>
      obtain ⟨key, hKey, hPiece⟩ := hMember
      obtain ⟨hValue, hValues⟩ := List.forall_mem_cons.1 hValues
      obtain ⟨keyed, hNames, hKeyed, hKeys, hValues⟩ := ih hValues
      exact ⟨(key, member.2) :: keyed, .cons ⟨hKey, rfl⟩ hNames, .cons hPiece hKeyed,
        List.forall_mem_cons.2 ⟨hKey.isBody, hKeys⟩, List.forall_mem_cons.2 ⟨hValue, hValues⟩⟩

/-- The text of an object keeps to the rules. -/
theorem ObjectText.isJson {members : List (String × List Char)} (h : ObjectText members text) :
    IsJson text := by
  obtain ⟨keyed, pieces, -, hKeyed, hText, hKeys, hValues⟩ := h.exists_keys
  exact .object hKeyed hText hKeys hValues

/-- The form of an object has the forms of the values under keys that mean the names. -/
theorem ObjectText.exists_form {members : List (String × List Char)}
    (h : ObjectText members text) :
    ∃ entries : List (Quoted × Source), form text = .object (.ofList entries) ∧
      List.Forall₂ (fun member entry => entry.1.meaning = .ok member.1 ∧ entry.2 = form member.2)
        members entries := by
  obtain ⟨keyed, pieces, hNames, hKeyed, hText, hKeys, hValues⟩ := h.exists_keys
  have hMembers := forall₂_scansMember hKeyed hKeys fun entry hEntry => (hValues entry hEntry).scans
  refine ⟨keyed.map scannedMember, (scans_object hText hMembers).form_eq, ?_⟩
  refine List.forall₂_map_right_iff.2 (hNames.imp fun member entry hEntry => ?_)
  obtain ⟨hKey, hValue⟩ := hEntry
  exact ⟨(Quoted.meaning_ofBody_eq_ok_iff hKey.isBody).2 hKey, congrArg form hValue⟩

/-- A text with nothing but blanks around it is scanned up to the last blanks. -/
theorem Scans.exists_scan {own : List Char} (h : Scans own source) (hText : Padded own text) :
    ∃ after, Source.scan text = (source, after) ∧ Source.skipBlanks after = [] := by
  cases hText with
  | @blanks before after hBefore hAfter =>
      refine ⟨after, ?_, List.dropWhile_eq_nil_iff.2 hAfter⟩
      rw [Source.scan, Source.scanValue_append hBefore]
      apply h.scanValue
      · simp only [List.length_append]
        omega
      · exact not_continuesNumber_of_blank hAfter

/-- A whole text is read as the text between the blanks. -/
theorem decodeText_of_padded {α : Type} {decode : Decoder α} {levels : Nat} {text : String}
    {own : List Char} (hOwn : IsJson own) (hText : Padded own text.toList) :
    decodeText decode levels text = decode levels (form own) := by
  obtain ⟨after, hScan, hAfter⟩ := hOwn.scans.exists_scan hText
  simp only [decodeText, hScan, hAfter]
  cases decode levels (form own) <;> rfl

end NoteForm.Json
