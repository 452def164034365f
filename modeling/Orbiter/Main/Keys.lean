import Orbiter.Main.Timer

/-!
# The keys of a tick

A tick looks at one code line, the last one that waits, and acts on the key it
recognises there unless the tick before ended with that key.

* `processInfrared_eq`: what a tick does with its code line.
* `remote_timerFunc`: **the keys part of a tick**, behind its movement.
* `act_of_not_hasAction`: the keys that do nothing.
-/

namespace Orbiter.Main

open Cxx Toolbox Stimuli Globals

namespace Globals

variable (g : Globals)

def code : Str := drain g.irQueue "xx".toList

def key : Option Taste := g.remote.recognise g.code

def pressed : Option Taste := if g.remote.oldCTaste ≠ g.key then g.key else none

end Globals

/-- A tick acts on the key it recognises unless the tick before ended with it. -/
theorem pressed_eq_some_iff {g : Globals} {key : Taste} :
    g.pressed = some key ↔ g.key = some key ∧ g.remote.oldCTaste ≠ some key := by
  rw [Globals.pressed]
  split_ifs with hold
  · exact ⟨fun hkey => ⟨hkey, hkey ▸ hold⟩, And.left⟩
  · rw [not_not] at hold
    exact ⟨nofun, fun hkey => absurd (hold.trans hkey.1) hkey.2⟩

theorem key_eq_none {g : Globals} (h : g.irQueue = []) : g.code = "xx".toList ∧ g.key = none := by
  have hcode : g.code = "xx".toList := by rw [Globals.code, h]; rfl
  refine ⟨hcode, ?_⟩
  rw [Globals.key, hcode]
  rfl

def Taste.hasAction : Taste → Bool
  | .keyVolumeup => false
  | .keyVolumedown => false
  | .keyForward => false
  | .keyBackward => false
  | .back => false
  | .check => false
  | _ => true

namespace Remote

variable (r : Remote)

theorem act_of_not_hasAction {key : Taste} (h : key.hasAction = false) : r.act key = r := by
  cases key <;> first | rfl | exact absurd h (by decide)

/-- An action looks neither at the code line nor at the keys. -/
theorem act_with (key : Taste) (s : Str) (cTaste oldCTaste : Option Taste) :
    { r with szTxt2 := s, cTaste := cTaste, oldCTaste := oldCTaste }.act key =
      { r.act key with szTxt2 := s, cTaste := cTaste, oldCTaste := oldCTaste } := by
  cases key <;> rfl

/-- **What a tick does with its code line.** -/
theorem processInfrared_eq (s : Str) : r.processInfrared s =
    { (if r.oldCTaste ≠ r.recognise s then r.recognise s else none).elim r r.act with
      szTxt2 := s
      cTaste := r.recognise s
      oldCTaste := r.recognise s } := by
  rw [processInfrared]
  by_cases h : r.oldCTaste = r.recognise s
  · simp only [h, ne_eq, not_true_eq_false, if_false, Option.elim_none]
  · simp only [ne_eq, h, not_false_eq_true, if_true]
    cases r.recognise s with
    | none => rfl
    | some key =>
      have hact := r.act_with key s (some key) r.oldCTaste
      simp only [Option.elim_some]
      rw [hact]

/-! ### Behind a movement -/

@[simp] theorem startMovement_cTaste (d : HostData) : (r.startMovement d).cTaste = r.cTaste := by
  rw [startMovement]
  split_ifs <;> rfl

@[simp] theorem startMovement_oldCTaste (d : HostData) :
    (r.startMovement d).oldCTaste = r.oldCTaste := by
  rw [startMovement]
  split_ifs <;> rfl

theorem recognise_congr {r r' : Remote} (h : r.cTaste = r'.cTaste) (s : Str) :
    r.recognise s = r'.recognise s := by
  rw [recognise, recognise, h]

end Remote

variable (env : Env) (g : Globals) (answers : Answers)

/-- The movement of a tick starts one `HostData` or leaves the remote control alone. -/
theorem remote_afterMovement : (g.afterMovement env answers).remote = g.remote ∨
    ∃ d, (g.afterMovement env answers).remote = g.remote.startMovement d := by
  have hframe := (afterMessage_frame env g).remote
  rw [← hframe]
  rcases processMovement_cases (g := g.afterMessage env) answers.movementReached with
    ⟨-, h⟩ | ⟨front, rest, -, -, h⟩ | ⟨front, rest, -, -, -, -, h⟩ | ⟨-, -, -, -, h⟩
  · exact Or.inl (congrArg Globals.remote h)
  · exact Or.inr ⟨_, congrArg Globals.remote h⟩
  · exact Or.inr ⟨_, congrArg Globals.remote h⟩
  · exact Or.inl (congrArg Globals.remote h)

theorem keys_afterMovement :
    (g.afterMovement env answers).remote.cTaste = g.remote.cTaste ∧
      (g.afterMovement env answers).remote.oldCTaste = g.remote.oldCTaste := by
  rcases remote_afterMovement env g answers with h | ⟨d, h⟩ <;> rw [h]
  · exact ⟨rfl, rfl⟩
  · exact ⟨g.remote.startMovement_cTaste d, g.remote.startMovement_oldCTaste d⟩

/-- **The keys part of a tick**, behind its movement. -/
theorem remote_timerFunc : (g.timerFunc env answers).remote =
    { g.pressed.elim (g.afterMovement env answers).remote
        (g.afterMovement env answers).remote.act with
      szTxt2 := g.code
      cTaste := g.key
      oldCTaste := g.key } := by
  obtain ⟨hcTaste, hold⟩ := keys_afterMovement env g answers
  have hrun : (g.timerFunc env answers).remote =
      (g.afterMovement env answers).remote.processInfrared g.code := rfl
  rw [hrun, Remote.processInfrared_eq, hold, Remote.recognise_congr hcTaste]
  rfl

theorem timerFunc_irQueue : (g.timerFunc env answers).irQueue = [] := by
  have hframe := processMovement_frame (g := g.afterMessage env) answers.movementReached
  have hrun : (g.timerFunc env answers).irQueue = (g.afterMovement env answers).irQueue := rfl
  rw [hrun, afterMovement, hframe.irQueue]
  by_cases hm : g.message = []
  · rw [afterMessage_of_nil env hm]
  · exact (afterMessage_of_ne_nil env hm).irQueue

theorem timerFunc_tcpQueue : (g.timerFunc env answers).tcpQueue = [] := by
  have hframe := processMovement_frame (g := g.afterMessage env) answers.movementReached
  have hrun : (g.timerFunc env answers).tcpQueue = (g.afterMovement env answers).tcpQueue := rfl
  rw [hrun, afterMovement, hframe.tcpQueue]
  by_cases hm : g.message = []
  · rw [afterMessage_of_nil env hm]
  · exact (afterMessage_of_ne_nil env hm).tcpQueue

end Orbiter.Main
