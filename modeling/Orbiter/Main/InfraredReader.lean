import Orbiter.Main.Timer

/-!
# The infrared reader

`ir_func`, the thread that hands the code lines of lirc to the loop.  A call of
`lirc_nextcode` gives a line, nothing yet, or an error; in the last two its pointer is
null.  The thread looks neither at the status nor at the pointer: it makes a string of
what it got, and a string made of a null pointer ends the program.

* `irFunc_run`: the lines pushed are those before the first null pointer.
* `irFuncSimulation`: each round is an `irPush` of the loop's machine, or nothing.
* `handsOver_iff`: **the thread hands over what lirc delivers exactly when lirc
  delivers a line every time.**
-/

namespace Orbiter.Main

open Cxx

/-- A result of `lirc_nextcode`: status 0 with a line, status 0 without one, or
status -1. -/
inductive NextCode
  | line (code : Str)
  | incomplete
  | error
  deriving DecidableEq

/-- `*code` behind the call, by the documented contract. -/
def NextCode.code : NextCode → Option Str
  | .line code => some code
  | .incomplete => none
  | .error => none

/-- The queue as `ir_func` fills it, and whether it has built a string from null. -/
structure IrFunc where
  irQueue : List Str
  nullString : Bool
  deriving DecidableEq

/-- One round of the loop, as long as there is a program. -/
def IrFunc.round (s : IrFunc) (r : NextCode) : IrFunc :=
  if s.nullString then s
  else
    match r.code with
    | some code => { s with irQueue := s.irQueue ++ [code] }
    | none => { s with nullString := true }

def irFunc : Machine IrFunc NextCode where
  init := ⟨[], false⟩
  step := IrFunc.round

def delivered (results : List NextCode) : List Str := results.filterMap NextCode.code

/-- The lines before the first null pointer. -/
def beforeNull (results : List NextCode) : List NextCode :=
  results.takeWhile fun r => r.code.isSome

theorem beforeNull_concat (results : List NextCode) (r : NextCode) :
    beforeNull (results ++ [r]) = beforeNull results ++
      if results.all (fun r => r.code.isSome) ∧ r.code.isSome then [r] else [] := by
  rw [beforeNull, beforeNull, List.takeWhile_append]
  by_cases hall : results.all (fun r => r.code.isSome) = true
  · have hlines : results.takeWhile (fun r => r.code.isSome) = results :=
      List.takeWhile_eq_self_iff.mpr (List.all_eq_true.mp hall)
    rw [hlines, if_pos rfl]
    cases hr : r.code.isSome <;> simp [hall, hr]
  · have hlines : (results.takeWhile fun r => r.code.isSome).length ≠ results.length := by
      intro h
      have heq := (List.takeWhile_prefix (fun r : NextCode => r.code.isSome)).eq_of_length h
      exact hall (List.all_eq_true.mpr (List.takeWhile_eq_self_iff.mp heq))
    rw [if_neg hlines, if_neg (fun h => hall h.1), List.append_nil]

/-- **What the thread does on any results**: it pushes the lines before the first null
pointer, and a null pointer ends it. -/
theorem irFunc_run (results : List NextCode) : irFunc.run results =
    ⟨delivered (beforeNull results), !results.all fun r => r.code.isSome⟩ := by
  induction results using List.reverseRecOn with
  | nil => rfl
  | append_singleton results r ih =>
    rw [Machine.run_concat, ih, beforeNull_concat, List.all_append]
    show IrFunc.round _ r = _
    rw [IrFunc.round]
    cases hall : results.all fun r => r.code.isSome with
    | false => simp
    | true =>
      cases hr : r.code with
      | none => simp [hr]
      | some code => simp [hr, delivered]

/-- Each round is an `irPush` of the loop's machine, or nothing. -/
def irFuncSimulation (env : Env) : Machine.Simulation irFunc (machine env) where
  rel s g := g.irQueue = s.irQueue
  word s r := if s.nullString then [] else r.code.toList.map Act.irPush
  init := rfl
  step := by
    intro s g r _ h
    show _ = (IrFunc.round s r).irQueue
    rw [IrFunc.round]
    cases s.nullString with
    | true => exact h
    | false =>
      cases r.code with
      | none => exact h
      | some code =>
        show g.irQueue ++ [code] = s.irQueue ++ [code]
        rw [h]

theorem irQueue_words (env : Env) (results : List NextCode) :
    ((machine env).run ((irFuncSimulation env).words results)).irQueue =
      delivered (beforeNull results) := by
  have h : _ = (irFunc.run results).irQueue := (irFuncSimulation env).run results
  rw [h, irFunc_run]

/-- The queue gets the lines delivered, in their order, and no string is built from a
null pointer. -/
def HandsOver (results : List NextCode) : Prop :=
  (irFunc.run results).irQueue = delivered results ∧ (irFunc.run results).nullString = false

instance (results : List NextCode) : Decidable (HandsOver results) := by
  unfold HandsOver; infer_instance

/-- **The thread hands over what lirc delivers exactly when lirc delivers a line every
time.** -/
theorem handsOver_iff (results : List NextCode) :
    HandsOver results ↔ ∀ r ∈ results, ∃ code, r = .line code := by
  have hline : ∀ r : NextCode, r.code.isSome = true ↔ ∃ code, r = .line code := by
    intro r
    cases r <;> simp [NextCode.code]
  have hall : (results.all fun r => r.code.isSome) = true ↔
      ∀ r ∈ results, ∃ code, r = .line code := by
    rw [List.all_eq_true]
    exact forall₂_congr fun r _ => hline r
  rw [HandsOver, irFunc_run, ← hall, Bool.not_eq_false']
  refine ⟨And.right, fun h => ⟨?_, h⟩⟩
  rw [beforeNull, List.takeWhile_eq_self_iff.mpr (List.all_eq_true.mp h)]

/-- A line that is not complete yet. -/
theorem incomplete_line_ends : ¬ ∀ results : List NextCode, HandsOver results := by
  intro h
  exact absurd (h [.line "10 00 KEY_PLAY RM-D420".toList, .incomplete]) (by decide)

end Orbiter.Main
