import NoteForm.Json.Decode
import NoteForm.Proofs.Ascending
import NoteForm.Proofs.Except

/-! What is read from the form of a value: the value itself, if its objects are in order. -/
namespace NoteForm.Json

mutual

/-- Whether the members of every object in a value stand in strictly ascending order. -/
def Ordered : Json → Prop
  | .array items => OrderedItems items
  | .object members => Ascending.Sorted Prod.fst members ∧ OrderedMembers members
  | _ => True

def OrderedItems : List Json → Prop
  | [] => True
  | item :: rest => item.Ordered ∧ OrderedItems rest

def OrderedMembers : List (String × Json) → Prop
  | [] => True
  | (_, value) :: rest => value.Ordered ∧ OrderedMembers rest

end

mutual

/-- The value with the members of every object gathered under their names. -/
def arranged : Json → Json
  | .array items => .array (arrangedItems items)
  | .object members => .object (Ascending.putAll Prod.fst (arrangedMembers members) [])
  | value => value

def arrangedItems : List Json → List Json
  | [] => []
  | item :: rest => item.arranged :: arrangedItems rest

def arrangedMembers : List (String × Json) → List (String × Json)
  | [] => []
  | (name, value) :: rest => (name, value.arranged) :: arrangedMembers rest

end

mutual

/-- Gathering changes nothing where every object is in order already. -/
theorem arranged_of_ordered (value : Json) (h : value.Ordered) : value.arranged = value := by
  cases value with
  | null => rfl
  | bool value => rfl
  | number value => rfl
  | string value => rfl
  | array items => rw [arranged, arrangedItems_of_ordered items h]
  | object members =>
      rw [arranged, arrangedMembers_of_ordered members h.2,
        Ascending.putAll_eq_of_perm h.1 (List.Perm.refl members)]

theorem arrangedItems_of_ordered (items : List Json) (h : OrderedItems items) :
    arrangedItems items = items := by
  cases items with
  | nil => rfl
  | cons item rest =>
      rw [arrangedItems, arranged_of_ordered item h.1, arrangedItems_of_ordered rest h.2]

theorem arrangedMembers_of_ordered (members : List (String × Json)) (h : OrderedMembers members) :
    arrangedMembers members = members := by
  cases members with
  | nil => rfl
  | cons member rest =>
      obtain ⟨name, value⟩ := member
      rw [arrangedMembers, arranged_of_ordered value h.1, arrangedMembers_of_ordered rest h.2]

end

/-- No value is written as a closing bracket, so none is taken for the end behind a last comma. -/
@[simp] theorem isLoneBracket_toSource (value : Json) : value.toSource.isLoneBracket = false := by
  cases value <;> rfl

/-- What comes of reading something that takes up `depth` levels when `levels` of them are left. -/
def within {α : Type} (levels depth : Nat) (value : α) : Except Fault α :=
  if depth ≤ levels then .ok value else .error .tooDeep

section

variable {α β : Type} {levels depth : Nat} {value : α}

theorem within_of_le (h : depth ≤ levels) : within levels depth value = .ok value := if_pos h

theorem within_of_lt (h : levels < depth) : within levels depth value = .error .tooDeep :=
  if_neg (Nat.not_le.2 h)

/-- What takes up no level can always be read. -/
@[simp] theorem within_zero : within levels 0 value = .ok value := within_of_le (Nat.zero_le levels)

/-- A level that is opened counts on both sides, so only the difference matters. -/
@[simp]
theorem within_succ_succ : within (levels + 1) (depth + 1) value = within levels depth value := by
  simp only [within, Nat.add_le_add_iff_right]

/-- What is made of a value after reading it takes up no levels. -/
@[simp] theorem map_within (f : α → β) :
    f <$> within levels depth value = within levels depth (f value) := by
  unfold within
  split <;> rfl

/-- What is read in two steps takes up as many levels as the deeper of the two. -/
theorem within_bind {further : Nat} {f : α → Except Fault β} {b : β}
    (h : f value = within levels further b) :
    within levels depth value >>= f = within levels (max depth further) b := by
  by_cases hDepth : depth ≤ levels
  · rw [within_of_le hDepth]
    simp only [bind, Except.bind, h, within, Nat.max_le, hDepth, true_and]
  · rw [within_of_lt (Nat.not_le.1 hDepth), within_of_lt]
    · rfl
    · exact Nat.lt_of_lt_of_le (Nat.not_le.1 hDepth) (Nat.le_max_left depth further)

end

mutual

/-- A form is read as the value it is the form of, whatever order the members are in, unless it is
too deep. -/
theorem decodeValue_toSource (levels : Nat) (value : Json) :
    decodeValue levels value.toSource = within levels value.depth value.arranged := by
  cases value with
  | null => cases levels <;> rfl
  | bool value => cases levels <;> rfl
  | number value => cases levels <;> rfl
  | string value => cases levels <;> rfl
  | array items =>
      cases levels with
      | zero => rfl
      | succ levels =>
          simp [toSource, decodeValue, decodeItems_toItems levels items, depth, arranged]
  | object members =>
      cases levels with
      | zero => rfl
      | succ levels =>
          simp [toSource, decodeValue, decodeMembers_toMembers levels [] members, depth, arranged]

theorem decodeItems_toItems (levels : Nat) (items : List Json) :
    decodeItems levels (toItems items) =
      within levels (depthOfItems items) (arrangedItems items) := by
  cases items with
  | nil => rfl
  | cons item rest =>
      simp only [toItems, decodeItems, isLoneBracket_toSource, decodeValue_toSource levels item,
        decodeItems_toItems levels rest]
      exact within_bind (map_within (item.arranged :: ·))

/-- Members join those that are held already, each under its name. -/
theorem decodeMembers_toMembers (levels : Nat) (held members : List (String × Json)) :
    decodeMembers levels held (toMembers members) =
      within levels (depthOfMembers members)
        (Ascending.putAll Prod.fst (arrangedMembers members) held) := by
  cases members with
  | nil => rfl
  | cons member rest =>
      obtain ⟨name, value⟩ := member
      simp only [toMembers, decodeMembers, Quoted.ofString]
      rw [decodeValue_toSource levels value]
      exact within_bind
        (decodeMembers_toMembers levels (putMember name value.arranged held) rest)

end

theorem orderedItems_iff (items : List Json) :
    OrderedItems items ↔ ∀ item ∈ items, item.Ordered := by
  induction items with
  | nil => simp [OrderedItems]
  | cons item rest ih => simp [OrderedItems, ih]

/-- Of members it only counts here whether their values are in order, not how their names stand. -/
theorem orderedMembers_iff (members : List (String × Json)) :
    OrderedMembers members ↔ ∀ member ∈ members, member.2.Ordered := by
  induction members with
  | nil => simp [OrderedMembers]
  | cons member rest ih => simp [OrderedMembers, ih]

/-- A member that joins the others leaves the values in order. -/
theorem orderedMembers_putMember {name : String} {value : Json} {members : List (String × Json)}
    (hValue : value.Ordered) (hMembers : OrderedMembers members) :
    OrderedMembers (putMember name value members) := by
  rw [orderedMembers_iff] at hMembers ⊢
  intro member hMember
  rcases Ascending.eq_or_mem_of_mem_put hMember with rfl | hMember
  · exact hValue
  · exact hMembers member hMember

mutual

/-- Whatever is read is in order, so values out of order only arise inside the program. -/
theorem ordered_of_decodeValue {levels : Nat} (source : Source) {value : Json}
    (h : decodeValue levels source = .ok value) : value.Ordered := by
  cases source with
  | missing next => simp [decodeValue] at h
  | null =>
      obtain rfl : Json.null = value := by simpa [decodeValue] using h
      exact trivial
  | bool flag =>
      obtain rfl : Json.bool flag = value := by simpa [decodeValue] using h
      exact trivial
  | misspelt defect => simp [decodeValue] at h
  | number number =>
      cases number with
      | none => simp [decodeValue] at h
      | some number =>
          obtain rfl : Json.number number = value := by simpa [decodeValue] using h
          exact trivial
  | misnumbered defect => simp [decodeValue] at h
  | string text =>
      rw [decodeValue] at h
      obtain ⟨meaning, -, rfl⟩ := exists_of_map_eq_ok h
      exact trivial
  | list items =>
      cases levels with
      | zero => simp [decodeValue] at h
      | succ levels =>
          rw [decodeValue] at h
          obtain ⟨values, hItems, rfl⟩ := exists_of_map_eq_ok h
          exact orderedItems_of_decodeItems items hItems
  | object members =>
      cases levels with
      | zero => simp [decodeValue] at h
      | succ levels =>
          rw [decodeValue] at h
          obtain ⟨values, hMembers, rfl⟩ := exists_of_map_eq_ok h
          exact ordered_of_decodeMembers members List.Pairwise.nil trivial hMembers

theorem orderedItems_of_decodeItems {levels : Nat} (items : Items) {values : List Json}
    (h : decodeItems levels items = .ok values) : OrderedItems values := by
  cases items with
  | close =>
      obtain rfl : [] = values := by simpa [decodeItems] using h
      exact trivial
  | stop next => simp [decodeItems] at h
  | item source rest =>
      rw [decodeItems] at h
      split at h
      · cases h
      · obtain ⟨value, hValue, h⟩ := exists_of_bind_eq_ok h
        obtain ⟨others, hRest, h⟩ := exists_of_bind_eq_ok h
        obtain rfl := Except.ok.inj h
        exact ⟨ordered_of_decodeValue source hValue, orderedItems_of_decodeItems rest hRest⟩

/-- Members are gathered under their names as they come in, so the order holds at every point. -/
theorem ordered_of_decodeMembers {levels : Nat} (members : Members)
    {held values : List (String × Json)} (hSorted : Ascending.Sorted Prod.fst held)
    (hHeld : OrderedMembers held) (h : decodeMembers levels held members = .ok values) :
    Ascending.Sorted Prod.fst values ∧ OrderedMembers values := by
  cases members with
  | close =>
      obtain rfl : held = values := by simpa [decodeMembers] using h
      exact ⟨hSorted, hHeld⟩
  | stop next => simp [decodeMembers] at h
  | keyless next => simp [decodeMembers] at h
  | unpaired key next =>
      rw [decodeMembers] at h
      obtain ⟨name, -, h⟩ := exists_of_bind_eq_ok h
      cases h
  | member key source rest =>
      rw [decodeMembers] at h
      obtain ⟨name, -, h⟩ := exists_of_bind_eq_ok h
      obtain ⟨value, hValue, h⟩ := exists_of_bind_eq_ok h
      exact ordered_of_decodeMembers rest (hSorted.put (name, value))
        (orderedMembers_putMember (ordered_of_decodeValue source hValue) hHeld) h

end

end NoteForm.Json
