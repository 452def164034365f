import Mathlib.Data.List.Basic

/-!
# Shared objects

A `std::shared_ptr` is a reference into a store of objects: whoever holds the
reference sees every change made through another copy of it.  Objects are
numbered in the order they are made; one that nobody refers to any more stays in
the store unseen.
-/

namespace Orbiter.Cxx

/-- A reference to a shared object: its number in the store. -/
abbrev Ref := Nat

abbrev Store (α : Type*) := List α

namespace Store

variable {α : Type*}

def next (s : Store α) : Ref := s.length

/-- The store after `new`; the object is at `s.next`. -/
def alloc (s : Store α) (a : α) : Store α := s ++ [a]

def deref [Inhabited α] (s : Store α) (r : Ref) : α := s.getD r default

/-- The store after a change of the object at `r`. -/
def update (s : Store α) (r : Ref) (f : α → α) : Store α := s.modify r f

@[simp] theorem next_alloc (s : Store α) (a : α) : (s.alloc a).next = s.next + 1 := by
  simp [next, alloc]

@[simp] theorem next_update (s : Store α) (r : Ref) (f : α → α) : (s.update r f).next = s.next := by
  simp [next, update]

variable [Inhabited α]

@[simp] theorem deref_next (s : Store α) (a : α) : (s.alloc a).deref s.next = a := by
  simp [deref, alloc, next]

theorem deref_alloc_of_lt {s : Store α} {r : Ref} (h : r < s.next) (a : α) :
    (s.alloc a).deref r = s.deref r := by
  simp only [deref, alloc, List.getD_eq_getElem?_getD]
  rw [List.getElem?_append_left h]

theorem deref_of_ge {s : Store α} {r : Ref} (h : s.next ≤ r) : s.deref r = default := by
  rw [deref, List.getD_eq_getElem?_getD, List.getElem?_eq_none h, Option.getD_none]

theorem deref_update_of_lt {s : Store α} {r : Ref} (h : r < s.next) (f : α → α) :
    (s.update r f).deref r = f (s.deref r) := by
  have hr : s[r]? = some (s.get ⟨r, h⟩) := List.getElem?_eq_getElem h
  simp [deref, update, List.getD_eq_getElem?_getD, hr]

theorem deref_update_of_ne {s : Store α} {r r' : Ref} (h : r ≠ r') (f : α → α) :
    (s.update r f).deref r' = s.deref r' := by
  simp [deref, update, List.getD_eq_getElem?_getD, h]

/-- An update changes the object at `r` or nothing. -/
theorem deref_update (s : Store α) (r : Ref) (f : α → α) (r' : Ref) :
    (s.update r f).deref r' = s.deref r' ∨
      (r = r' ∧ (s.update r f).deref r' = f (s.deref r')) := by
  by_cases h : r = r'
  · subst h
    by_cases hlt : r < s.next
    · exact Or.inr ⟨rfl, deref_update_of_lt hlt f⟩
    · have hge : s.next ≤ r := Nat.le_of_not_lt hlt
      left
      rw [deref_of_ge (by rwa [next_update]), deref_of_ge hge]
  · exact Or.inl (deref_update_of_ne h f)

end Store

end Orbiter.Cxx
