/-! Lists in ascending order of a key. Strictly ascending ones serve as finite sets (the key
determines the element) and as finite maps (the key is the first half of a pair). -/
namespace NoteForm.Ascending

variable {α κ : Type} [LT κ]

/-- Each element's key lies strictly below every later one, so no key occurs twice. -/
def Sorted (key : α → κ) (elements : List α) : Prop :=
  elements.Pairwise fun a b => key a < key b

variable [DecidableLT κ]

/-- Put an element in its place. An element with the same key gives way to it. -/
def put (key : α → κ) (a : α) : List α → List α
  | [] => [a]
  | b :: rest =>
      if key a < key b then a :: b :: rest
      else if key b < key a then b :: put key a rest
      else a :: rest

/-- Put the elements one after the other; of those with one key the last stays. -/
def putAll (key : α → κ) (elements : List α) (onto : List α) : List α :=
  elements.foldl (fun held a => put key a held) onto

/-- Put an element in front of the first one whose key is not below its own. -/
def settle (key : α → κ) (a : α) : List α → List α
  | [] => [a]
  | b :: rest => if key b < key a then b :: settle key a rest else a :: b :: rest

/-- Order by key. Elements with the same key keep the order they came in. -/
def arrange (key : α → κ) (elements : List α) : List α :=
  elements.foldr (settle key) []

@[simp] theorem putAll_nil (key : α → κ) (onto : List α) : putAll key [] onto = onto := rfl

@[simp] theorem putAll_cons (key : α → κ) (a : α) (elements onto : List α) :
    putAll key (a :: elements) onto = putAll key elements (put key a onto) := rfl

/-- Nothing but the new element comes in. -/
theorem eq_or_mem_of_mem_put {key : α → κ} {a b : α} {elements : List α}
    (h : b ∈ put key a elements) : b = a ∨ b ∈ elements := by
  induction elements with
  | nil => simpa [put] using h
  | cons c rest ih =>
      rw [put] at h
      split at h
      · simpa using h
      · split at h
        · rcases List.mem_cons.1 h with rfl | hRest
          · simp
          · rcases ih hRest with hEq | hMem
            · exact Or.inl hEq
            · exact Or.inr (List.mem_cons_of_mem _ hMem)
        · rcases List.mem_cons.1 h with rfl | hRest
          · simp
          · exact Or.inr (List.mem_cons_of_mem _ hRest)

variable [LE κ] [Std.IsLinearOrder κ] [Std.LawfulOrderLT κ]

/-- Putting an element keeps the order strict. -/
theorem Sorted.put {key : α → κ} {elements : List α} (h : Sorted key elements) (a : α) :
    Sorted key (Ascending.put key a elements) := by
  induction elements with
  | nil => simp [Ascending.put, Sorted]
  | cons b rest ih =>
      obtain ⟨hHead, hRest⟩ := List.pairwise_cons.1 h
      rw [Ascending.put]
      split
      · rename_i hBefore
        refine List.pairwise_cons.2 ⟨fun c hc => ?_, h⟩
        rcases List.mem_cons.1 hc with rfl | hc
        · exact hBefore
        · exact Std.lt_trans hBefore (hHead c hc)
      · split
        · rename_i hAfter
          refine List.pairwise_cons.2 ⟨fun c hc => ?_, ih hRest⟩
          rcases eq_or_mem_of_mem_put hc with rfl | hc
          · exact hAfter
          · exact hHead c hc
        · rename_i hNotBefore hNotAfter
          refine List.pairwise_cons.2 ⟨fun c hc => ?_, hRest⟩
          exact Std.lt_of_le_of_lt (Std.not_lt.1 hNotAfter) (hHead c hc)

/-- Putting several elements keeps the order strict. -/
theorem Sorted.putAll {key : α → κ} {onto : List α} (h : Sorted key onto) (elements : List α) :
    Sorted key (Ascending.putAll key elements onto) := by
  induction elements generalizing onto with
  | nil => exact h
  | cons a rest ih => exact ih (h.put a)

end NoteForm.Ascending
