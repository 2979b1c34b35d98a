import NoteForm.Ascending

/-! JSON values. Numbers are kept in the machine's own forms, and the members of an object are
meant to stand in ascending order of their names; reading sees to that. -/
namespace NoteForm

/-- A number as it is kept: an integer that fits 64 bits, with or without a sign, or the bits of a
finite double. -/
inductive Json.Number where
  | integer (value : Int) (lower : -0x8000000000000000 ≤ value)
      (upper : value < 0x10000000000000000)
  | double (bits : UInt64)
deriving DecidableEq, Repr

inductive Json where
  | null
  | bool (value : Bool)
  | number (value : Json.Number)
  | string (value : String)
  | array (items : List Json)
  | object (members : List (String × Json))
deriving Repr, Inhabited

namespace Json

/-- A word of 64 bits as a number. -/
def Number.ofWord (word : UInt64) : Number :=
  .integer word.toNat (by omega) (by have hWord := word.toNat_lt; omega)

/-- A view id as a number. -/
def Number.ofId (id : Int32) : Number :=
  .integer id.toInt (by have hId := id.le_toInt; omega) (by have hId := id.toInt_lt; omega)

/-- An integer as a word of 64 bits, if it is one. -/
def wordOfInt? (value : Int) : Option UInt64 :=
  if 0 ≤ value ∧ value < 0x10000000000000000 then some (UInt64.ofNat value.toNat) else none

/-- An integer as a view id, if it has at most 32 bits. -/
def viewIdOfInt? (value : Int) : Option Int32 :=
  if -0x80000000 ≤ value ∧ value < 0x80000000 then some (Int32.ofInt value) else none

mutual

/-- Equality of values, compared member by member. -/
def decEq : (a b : Json) → Decidable (a = b)
  | .null, .null => isTrue rfl
  | .bool a, .bool b => decidable_of_iff (a = b) (by simp)
  | .number a, .number b => decidable_of_iff (a = b) (by simp)
  | .string a, .string b => decidable_of_iff (a = b) (by simp)
  | .array a, .array b =>
      match decEqItems a b with
      | isTrue h => isTrue (by rw [h])
      | isFalse h => isFalse (by simpa using h)
  | .object a, .object b =>
      match decEqMembers a b with
      | isTrue h => isTrue (by rw [h])
      | isFalse h => isFalse (by simpa using h)
  | .null, .bool _ | .null, .number _ | .null, .string _ | .null, .array _ | .null, .object _
  | .bool _, .null | .bool _, .number _ | .bool _, .string _ | .bool _, .array _
  | .bool _, .object _
  | .number _, .null | .number _, .bool _ | .number _, .string _ | .number _, .array _
  | .number _, .object _
  | .string _, .null | .string _, .bool _ | .string _, .number _ | .string _, .array _
  | .string _, .object _
  | .array _, .null | .array _, .bool _ | .array _, .number _ | .array _, .string _
  | .array _, .object _
  | .object _, .null | .object _, .bool _ | .object _, .number _ | .object _, .string _
  | .object _, .array _ => isFalse (by simp)

def decEqItems : (a b : List Json) → Decidable (a = b)
  | [], [] => isTrue rfl
  | [], _ :: _ => isFalse (by simp)
  | _ :: _, [] => isFalse (by simp)
  | a :: as, b :: bs =>
      match decEq a b, decEqItems as bs with
      | isTrue h, isTrue hs => isTrue (by rw [h, hs])
      | isFalse h, _ => isFalse (by simp [h])
      | _, isFalse hs => isFalse (by simp [hs])

def decEqMembers : (a b : List (String × Json)) → Decidable (a = b)
  | [], [] => isTrue rfl
  | [], _ :: _ => isFalse (by simp)
  | _ :: _, [] => isFalse (by simp)
  | (k, a) :: as, (l, b) :: bs =>
      match (inferInstance : Decidable (k = l)), decEq a b, decEqMembers as bs with
      | isTrue hk, isTrue h, isTrue hs => isTrue (by rw [hk, h, hs])
      | isFalse hk, _, _ => isFalse (by simp [hk])
      | _, isFalse h, _ => isFalse (by simp [h])
      | _, _, isFalse hs => isFalse (by simp [hs])

end

instance : DecidableEq Json := decEq

mutual

/-- How many arrays and objects are open at the innermost place of a value. -/
def depth : Json → Nat
  | .array items => depthOfItems items + 1
  | .object members => depthOfMembers members + 1
  | _ => 0

def depthOfItems : List Json → Nat
  | [] => 0
  | item :: rest => max item.depth (depthOfItems rest)

def depthOfMembers : List (String × Json) → Nat
  | [] => 0
  | (_, value) :: rest => max value.depth (depthOfMembers rest)

end

/-- The member of that name; none if the value is no object or has no such member. -/
def member? (value : Json) (name : String) : Option Json :=
  match value with
  | .object members => (members.find? (·.1 = name)).map (·.2)
  | _ => none

/-- Add a member to an object's members. It takes the place of an earlier one of that name. -/
def putMember (name : String) (value : Json) (members : List (String × Json)) :
    List (String × Json) :=
  Ascending.put Prod.fst (name, value) members

def array? : Json → Option (List Json)
  | .array items => some items
  | _ => none

def object? : Json → Option (List (String × Json))
  | .object members => some members
  | _ => none

/-- The value as a view id. A double is none, not even a whole one. -/
def viewId? : Json → Option Int32
  | .number (.integer value ..) => viewIdOfInt? value
  | _ => none

end Json
end NoteForm
