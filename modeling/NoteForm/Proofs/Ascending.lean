import Mathlib.Data.List.Nodup
import NoteForm.Ascending

/-! Gathering elements by key, seen from outside: what is found under a key is the last element
that was put under it, whatever order the keys came in. -/
namespace NoteForm.Ascending

variable {α κ : Type}

theorem Sorted.nodup_keys [LT κ] [LE κ] [Std.LawfulOrderLT κ] {key : α → κ} {elements : List α}
    (h : Sorted key elements) : (elements.map key).Nodup :=
  List.pairwise_map.2 (List.Pairwise.imp (fun {a b} (hLt : key a < key b) (hEq : key a = key b) =>
    Std.lt_irrefl (hEq ▸ hLt)) h)

/-- A strictly ascending list is determined by its elements. -/
theorem Sorted.eq_of_perm [LT κ] [LE κ] [Std.IsLinearOrder κ] [Std.LawfulOrderLT κ] {key : α → κ}
    {first second : List α} (hFirst : Sorted key first) (hSecond : Sorted key second)
    (h : first.Perm second) : first = second :=
  h.eq_of_pairwise (fun _ _ _ _ hLt hGt => absurd (Std.lt_trans hLt hGt) Std.lt_irrefl)
    hFirst hSecond

variable [DecidableEq κ]

/-- Where no key occurs twice, looking up an element's key finds that element. -/
theorem find?_key_eq_some_iff {key : α → κ} {elements : List α} {k : κ} {a : α}
    (h : (elements.map key).Nodup) :
    elements.find? (key · = k) = some a ↔ a ∈ elements ∧ key a = k := by
  induction elements with
  | nil => simp
  | cons b rest ih =>
      obtain ⟨hHead, hRest⟩ := List.nodup_cons.1 h
      by_cases hKey : key b = k
      · have hOther : a ∈ rest → key a ≠ k := by
          intro hMem hEq
          exact hHead (List.mem_map.2 ⟨a, hMem, hEq.trans hKey.symm⟩)
        simp only [List.find?_cons_of_pos, hKey, decide_true, Option.some.injEq, List.mem_cons]
        grind
      · rw [List.find?_cons_of_neg (by simpa using hKey), ih hRest, List.mem_cons]
        grind

/-- Where no key occurs twice, the order does not matter to a look-up. -/
theorem find?_eq_of_perm {key : α → κ} {first second : List α} (h : first.Perm second)
    (hKeys : (second.map key).Nodup) (k : κ) :
    first.find? (key · = k) = second.find? (key · = k) := by
  apply Option.ext
  intro a
  rw [find?_key_eq_some_iff ((h.map key).nodup_iff.2 hKeys), find?_key_eq_some_iff hKeys,
    h.mem_iff]

/-- The last element under a key is the one behind which the key does not occur again. -/
theorem find?_reverse_eq_some_iff {key : α → κ} {elements : List α} {k : κ} {a : α} :
    elements.reverse.find? (key · = k) = some a ↔
      key a = k ∧ ∃ before after, elements = before ++ a :: after ∧ ∀ b ∈ after, key b ≠ k := by
  rw [List.find?_eq_some_iff_append]
  simp only [decide_eq_true_eq, Bool.not_eq_eq_eq_not, Bool.not_true,
    decide_eq_false_iff_not, and_congr_right_iff]
  intro hKey
  constructor
  · rintro ⟨after, before, hSplit, hAfter⟩
    refine ⟨before.reverse, after.reverse, ?_, by simpa using hAfter⟩
    rw [List.reverse_eq_iff] at hSplit
    simpa using hSplit
  · rintro ⟨before, after, rfl, hAfter⟩
    exact ⟨after.reverse, before.reverse, by simp, by simpa using hAfter⟩

variable [LT κ] [DecidableLT κ] [LE κ] [Std.IsLinearOrder κ] [Std.LawfulOrderLT κ]

/-- Putting an element changes what is found under its key and under no other. -/
@[simp] theorem find?_put (key : α → κ) (a : α) (elements : List α) (k : κ) :
    (put key a elements).find? (key · = k) =
      if key a = k then some a else elements.find? (key · = k) := by
  induction elements with
  | nil => by_cases hKey : key a = k <;> simp [put, hKey]
  | cons b rest ih =>
      rw [put]
      split
      · by_cases hKey : key a = k <;> simp [List.find?_cons, hKey]
      · rename_i hNotBefore
        split
        · rename_i hAfter
          rw [List.find?_cons, ih]
          by_cases hKey : key a = k
          · have hOther : key b ≠ k := fun hEq => Std.lt_irrefl (hKey ▸ hEq ▸ hAfter)
            simp [hKey, hOther]
          · simp [List.find?_cons, hKey]
        · rename_i hNotAfter
          have hSame : key a = key b :=
            Std.le_antisymm (Std.not_lt.1 hNotAfter) (Std.not_lt.1 hNotBefore)
          by_cases hKey : key a = k
          · simp [hKey]
          · simp [hKey, ← hSame]

/-- Of the elements under a key the last one put is found. -/
@[simp] theorem find?_putAll (key : α → κ) (elements onto : List α) (k : κ) :
    (putAll key elements onto).find? (key · = k) =
      (elements.reverse.find? (key · = k)).or (onto.find? (key · = k)) := by
  induction elements generalizing onto with
  | nil => simp
  | cons a rest ih =>
      by_cases hKey : key a = k <;> simp [ih, hKey]

/-- If the key determines the element, nothing is lost when an element is put. -/
theorem mem_put_iff {key : α → κ} (hKey : Function.Injective key) {elements : List α}
    (h : Sorted key elements) {a b : α} :
    b ∈ put key a elements ↔ b = a ∨ b ∈ elements := by
  have hPut := find?_key_eq_some_iff (k := key b) (a := b) (h.put a).nodup_keys
  have hOld := find?_key_eq_some_iff (k := key b) (a := b) h.nodup_keys
  rw [and_iff_left rfl] at hPut hOld
  rw [← hPut, find?_put, ← hOld]
  by_cases hSame : a = b
  · simp [hSame]
  · rw [if_neg (hKey.ne hSame), eq_comm, iff_or_self]
    exact fun hEq => absurd hEq.symm hSame

omit [DecidableEq κ] in
theorem sorted_putAll_nil (key : α → κ) (elements : List α) : Sorted key (putAll key elements []) :=
  Sorted.putAll List.Pairwise.nil elements

/-- What is gathered are the elements that come last under their keys. -/
theorem mem_putAll_iff {key : α → κ} {elements : List α} {a : α} :
    a ∈ putAll key elements [] ↔ elements.reverse.find? (key · = key a) = some a := by
  have hFound := find?_key_eq_some_iff (k := key a) (a := a)
    (sorted_putAll_nil key elements).nodup_keys
  simpa using hFound.symm

/-- No key is lost. -/
theorem mem_keys_putAll_iff {key : α → κ} {elements : List α} {k : κ} :
    k ∈ (putAll key elements []).map key ↔ k ∈ elements.map key := by
  have hFound (held : List α) : k ∈ held.map key ↔ (held.find? (key · = k)).isSome := by simp
  rw [hFound, find?_putAll, List.find?_nil, Option.or_none, ← hFound, List.map_reverse,
    List.mem_reverse]

/-- Elements under different keys are all kept. -/
theorem putAll_perm {key : α → κ} {elements : List α} (h : (elements.map key).Nodup) :
    (putAll key elements []).Perm elements := by
  have hReverse : (elements.reverse.map key).Nodup := by
    rw [List.map_reverse]
    exact List.nodup_reverse.2 h
  have hGathered := (sorted_putAll_nil key elements).nodup_keys
  refine (List.perm_ext_iff_of_nodup (hGathered.of_map key) (h.of_map key)).2 fun a => ?_
  rw [mem_putAll_iff, find?_key_eq_some_iff hReverse, and_iff_left rfl, List.mem_reverse]

/-- Gathering puts a strictly ascending list together again, whatever order it was brought into. -/
theorem putAll_eq_of_perm {key : α → κ} {elements ordered : List α} (hOrdered : Sorted key ordered)
    (h : elements.Perm ordered) : putAll key elements [] = ordered := by
  have hNodup : (elements.map key).Nodup := (h.map key).nodup_iff.2 hOrdered.nodup_keys
  exact (sorted_putAll_nil key elements).eq_of_perm hOrdered ((putAll_perm hNodup).trans h)

omit [DecidableEq κ] [LE κ] [Std.IsLinearOrder κ] [Std.LawfulOrderLT κ] in
/-- An element that is settled joins the others, and none of them is lost. -/
theorem settle_perm (key : α → κ) (a : α) (elements : List α) :
    (settle key a elements).Perm (a :: elements) := by
  induction elements with
  | nil => exact .refl _
  | cons b rest ih =>
      rw [settle]
      split
      · exact (ih.cons b).trans (.swap a b rest)
      · exact .refl _

omit [DecidableEq κ] [LE κ] [Std.IsLinearOrder κ] [Std.LawfulOrderLT κ] in
theorem arrange_perm (key : α → κ) (elements : List α) :
    (arrange key elements).Perm elements := by
  induction elements with
  | nil => exact .refl _
  | cons a rest ih => exact (settle_perm key a (arrange key rest)).trans (ih.cons a)

omit [DecidableEq κ] in
/-- Settling an element under a key of its own keeps the order strict. -/
theorem Sorted.settle {key : α → κ} {elements : List α} (h : Sorted key elements) {a : α}
    (hOwn : key a ∉ elements.map key) : Sorted key (Ascending.settle key a elements) := by
  induction elements with
  | nil => exact List.pairwise_singleton _ a
  | cons b rest ih =>
      obtain ⟨hHead, hRest⟩ := List.pairwise_cons.1 h
      rw [List.map_cons, List.mem_cons, not_or] at hOwn
      rw [Ascending.settle]
      split
      · rename_i hAfter
        refine List.pairwise_cons.2 ⟨fun c hc => ?_, ih hRest hOwn.2⟩
        rcases List.mem_cons.1 ((settle_perm key a rest).mem_iff.1 hc) with rfl | hc
        · exact hAfter
        · exact hHead c hc
      · rename_i hNotAfter
        have hBefore : key a < key b := Std.lt_of_le_of_ne (Std.not_lt.1 hNotAfter) hOwn.1
        refine List.pairwise_cons.2 ⟨fun c hc => ?_, h⟩
        rcases List.mem_cons.1 hc with rfl | hc
        · exact hBefore
        · exact Std.lt_trans hBefore (hHead c hc)

omit [DecidableEq κ] in
/-- Where no key occurs twice, ordering makes the order strict. -/
theorem sorted_arrange {key : α → κ} {elements : List α} (h : (elements.map key).Nodup) :
    Sorted key (arrange key elements) := by
  induction elements with
  | nil => exact List.Pairwise.nil
  | cons a rest ih =>
      obtain ⟨hHead, hRest⟩ := List.nodup_cons.1 h
      refine (ih hRest).settle fun hMem => hHead ?_
      exact ((arrange_perm key rest).map key).mem_iff.1 hMem

omit [DecidableEq κ] in
/-- Where no key occurs twice, ordering leaves nothing to the order the elements came in. -/
theorem arrange_eq_of_perm {key : α → κ} {elements ordered : List α}
    (hOrdered : Sorted key ordered) (h : elements.Perm ordered) :
    arrange key elements = ordered := by
  have hNodup : (elements.map key).Nodup := (h.map key).nodup_iff.2 hOrdered.nodup_keys
  exact (sorted_arrange hNodup).eq_of_perm hOrdered ((arrange_perm key elements).trans h)

end NoteForm.Ascending
