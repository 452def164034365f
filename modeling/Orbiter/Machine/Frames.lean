import Mathlib.Data.List.Basic
import Mathlib.Data.List.TakeWhile

/-!
# Frames of a stream

A stream of symbols in which one symbol ends a frame.  A reader that takes the stream in
pieces finds the frames whichever way it is cut, as long as it keeps what is behind the
last end.

* `takeFrame`: the first frame, and what is behind it.
* `frames`: all the complete frames.
* `frames_flatten_append`: **a stream has only one reading.**
-/

namespace Orbiter.Frames

variable {α : Type*} [DecidableEq α] (sep : α)

def IsFrame (f : List α) : Prop := ∃ l, sep ∉ l ∧ f = l ++ [sep]

/-- The first frame, and what is behind it. -/
def takeFrame (s : List α) : Option (List α × List α) :=
  match s.dropWhile (fun a => a ≠ sep) with
  | [] => none
  | a :: t => some (s.takeWhile (fun a => a ≠ sep) ++ [a], t)

def frames : List α → List (List α)
  | [] => []
  | a :: s => if a = sep then [a] :: frames s else (frames s).modifyHead (a :: ·)

variable {sep}

/-! ### The first frame -/

theorem dropWhile_of_notMem {s : List α} (h : sep ∉ s) (t : List α) :
    (s ++ sep :: t).dropWhile (fun a => a ≠ sep) = sep :: t ∧
      (s ++ sep :: t).takeWhile (fun a => a ≠ sep) = s := by
  have hall : ∀ a ∈ s, (decide (a ≠ sep)) = true := by
    intro a ha
    rw [decide_eq_true_iff]
    rintro rfl
    exact h ha
  rw [List.dropWhile_append_of_pos hall, List.takeWhile_append_of_pos hall,
    List.dropWhile_cons_of_neg (by simp), List.takeWhile_cons_of_neg (by simp), List.append_nil]
  exact ⟨rfl, rfl⟩

theorem takeFrame_append {l : List α} (h : sep ∉ l) (t : List α) :
    takeFrame sep (l ++ sep :: t) = some (l ++ [sep], t) := by
  obtain ⟨hdrop, htake⟩ := dropWhile_of_notMem h t
  rw [takeFrame, hdrop, htake]

theorem takeFrame_of_notMem {s : List α} (h : sep ∉ s) : takeFrame sep s = none := by
  have hdrop : s.dropWhile (fun a => a ≠ sep) = [] := by
    rw [List.dropWhile_eq_nil_iff]
    intro a ha
    rw [decide_eq_true_iff]
    rintro rfl
    exact h ha
  rw [takeFrame, hdrop]

/-- A list with a separator, split at the first one. -/
theorem exists_frame {s : List α} (h : sep ∈ s) : ∃ l t, sep ∉ l ∧ s = l ++ sep :: t := by
  induction s with
  | nil => exact absurd h (by simp)
  | cons a s ih =>
    by_cases ha : a = sep
    · exact ⟨[], s, by simp, by rw [ha]; rfl⟩
    · obtain ⟨l, t, hl, rfl⟩ := ih ((List.mem_cons.mp h).resolve_left fun he => ha he.symm)
      refine ⟨a :: l, t, ?_, rfl⟩
      rw [List.mem_cons, not_or]
      exact ⟨fun he => ha he.symm, hl⟩

theorem takeFrame_eq_none_iff {s : List α} : takeFrame sep s = none ↔ sep ∉ s := by
  refine ⟨?_, takeFrame_of_notMem⟩
  intro h hs
  obtain ⟨l, t, hl, rfl⟩ := exists_frame hs
  rw [takeFrame_append hl] at h
  exact absurd h (by simp)

theorem mem_of_takeFrame {s : List α} {x : List α × List α} (h : takeFrame sep s = some x) :
    sep ∈ s := by
  by_contra hs
  rw [takeFrame_of_notMem hs] at h
  exact absurd h (by simp)

theorem takeFrame_eq_some_iff {s f t : List α} :
    takeFrame sep s = some (f, t) ↔ IsFrame sep f ∧ s = f ++ t := by
  constructor
  · intro h
    obtain ⟨l, t', hl, rfl⟩ := exists_frame (mem_of_takeFrame h)
    rw [takeFrame_append hl, Option.some.injEq, Prod.mk.injEq] at h
    obtain ⟨rfl, rfl⟩ := h
    exact ⟨⟨l, hl, rfl⟩, by simp⟩
  · rintro ⟨⟨l, hl, rfl⟩, rfl⟩
    rw [List.append_assoc]
    exact takeFrame_append hl t

/-! ### All frames -/

theorem frames_of_notMem {s : List α} (h : sep ∉ s) : frames sep s = [] := by
  induction s with
  | nil => rfl
  | cons a s ih =>
    rw [List.mem_cons, not_or] at h
    rw [frames, if_neg (fun he => h.1 he.symm), ih h.2]
    rfl

theorem frames_append_sep {l : List α} (h : sep ∉ l) (t : List α) :
    frames sep (l ++ sep :: t) = (l ++ [sep]) :: frames sep t := by
  induction l with
  | nil => rw [List.nil_append, frames, if_pos rfl, List.nil_append]
  | cons a l ih =>
    rw [List.mem_cons, not_or] at h
    rw [List.cons_append, frames, if_neg (fun he => h.1 he.symm), ih h.2]
    rfl

theorem frames_of_isFrame {f : List α} (h : IsFrame sep f) (t : List α) :
    frames sep (f ++ t) = f :: frames sep t := by
  obtain ⟨l, hl, rfl⟩ := h
  rw [List.append_assoc]
  exact frames_append_sep hl t

/-- **A stream has only one reading**: frames, and what follows them. -/
theorem frames_flatten_append {fs : List (List α)} (h : ∀ f ∈ fs, IsFrame sep f) (t : List α) :
    frames sep (fs.flatten ++ t) = fs ++ frames sep t := by
  induction fs with
  | nil => rfl
  | cons f fs ih =>
    rw [List.flatten_cons, List.append_assoc, frames_of_isFrame (h f List.mem_cons_self),
      ih fun f' hf' => h f' (List.mem_cons_of_mem _ hf')]
    rfl

theorem prefix_of_flatten {fs gs : List (List α)} (hf : ∀ f ∈ fs, IsFrame sep f)
    (hg : ∀ g ∈ gs, IsFrame sep g) (h : fs.flatten <+: gs.flatten) : fs <+: gs := by
  obtain ⟨t, ht⟩ := h
  have hgs : frames sep gs.flatten = gs := by
    have hall := frames_flatten_append hg []
    rw [List.append_nil] at hall
    rw [hall]
    exact List.append_nil _
  rw [← ht, frames_flatten_append hf] at hgs
  exact ⟨_, hgs⟩

end Orbiter.Frames
