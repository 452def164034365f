import Orbiter.Cxx.Truncation
import Orbiter.Main.Timer

/-!
# From the angle of a message to the motor

`vProcessMovement` writes the angle of a message into the global `iAngle`, an `int`, for
the directions 1 and 2 only, and moves by `iAngle` for every direction but 0.

* `commands_eq`: the motor commands of a movement.
* `angle_honoured_iff`: **the angle sent is the angle commanded exactly for whole
  degrees.**
* `own_message_iff`: **a command depends on its own message alone exactly for the
  directions 1 and 2**, or when the two states agree on `iAngle`.
-/

namespace Orbiter.Main

open Cxx Toolbox Stimuli Globals

/-! ### The commands of a movement -/

def IsNext (g : Globals) (d : HostData) : Prop :=
  ∃ front rest, g.movementQueue = front :: rest ∧ g.heap.deref front = d

def commands (g : Globals) : List MotorCall :=
  g.vProcessMovement.remote.calls.drop g.remote.calls.length

def nextAngle (d : HostData) (iAngle : Int) : Int :=
  if d.direction = 1 then truncate d.angularDistance
  else if d.direction = 2 then truncate (d.angularDistance * -1)
  else iAngle

def unitsPerDegree : ℚ := 65536 / 360 * railperi / wheelperi

/-- **The motor commands of a movement.** -/
theorem commands_eq {g : Globals} {d : HostData} (h : IsNext g d) (hd : d.direction ≠ 0) :
    commands g =
      [.setSpeed d.speed, .move (truncate (unitsPerDegree * nextAngle d g.remote.iAngle))] := by
  obtain ⟨front, rest, hq, rfl⟩ := h
  have hunits (a : Int) : 65536 * (a : ℚ) / 360 * railperi / wheelperi = unitsPerDegree * a := by
    rw [unitsPerDegree]
    ring
  rw [commands, vProcessMovement_of_eq hq]
  simp only [execute, Remote.startMovement, if_pos hd, Remote.calcTargetPosition, Remote.log,
    hunits, nextAngle]
  split_ifs with h1 h2
  · omega
  · exact List.drop_left
  · exact List.drop_left
  · exact List.drop_left

theorem hundred_le_unitsPerDegree : (100 : Nat) ≤ unitsPerDegree := by
  rw [unitsPerDegree, railperi, wheelperi]
  norm_num

/-! ### The angle sent -/

/-- The angle of the fields, in hundredths of a degree. -/
def hundredths (f : Fields) : Int := 100 * f.angularDistance + f.angularDistanceDiv100

/-- The encoder units of `h` hundredths of a degree. -/
def rotation (h : Int) : Int := truncate ((h : ℚ) / 100 * 65536 / 360 * railperi / wheelperi)

/-- The motor is told to move by the angle of `h` hundredths, in the direction of `d`. -/
def HonoursAngle (g : Globals) (d : HostData) (h : Int) : Prop :=
  .move (if d.direction = 1 then rotation h else -rotation h) ∈ commands g

instance (g : Globals) (d : HostData) (h : Int) : Decidable (HonoursAngle g d h) := by
  unfold HonoursAngle; infer_instance

theorem rotation_eq (h : Int) : rotation h = truncate (unitsPerDegree * (h / 100)) := by
  rw [rotation, unitsPerDegree]
  congr 1
  ring

/-- Only whole degrees survive the conversion to `int`. -/
theorem truncate_hundredths_iff (h : Int) :
    truncate (unitsPerDegree * truncate ((h : ℚ) / 100)) = rotation h ↔ 100 ∣ h := by
  rw [rotation_eq]
  exact truncate_mul_truncate_iff (by norm_num) hundred_le_unitsPerDegree h

variable (env : Env) {s : Str} {speakerID : Nat}

theorem angularDistance_eq {f : Fields} (hf : Accepts s speakerID f) :
    (decodeHostData env.pow s speakerID).angularDistance = hundredths f / 100 := by
  rw [decodeHostData_of_accepts hf]
  show 1 * (f.angularDistance : ℚ) + 1 / 100 * f.angularDistanceDiv100 = _
  rw [hundredths]
  push_cast
  ring

/-- **The angle sent is the angle commanded exactly for whole degrees.** -/
theorem angle_honoured_iff {f : Fields} (hf : Accepts s speakerID f) {g : Globals}
    (hw : IsNext g (decodeHostData env.pow s speakerID))
    (hd : (decodeHostData env.pow s speakerID).direction = 1 ∨
      (decodeHostData env.pow s speakerID).direction = 2) :
    HonoursAngle g (decodeHostData env.pow s speakerID) (hundredths f) ↔ 100 ∣ hundredths f := by
  rw [← truncate_hundredths_iff, HonoursAngle, commands_eq hw (by omega), nextAngle,
    angularDistance_eq env hf]
  rcases hd with hd | hd
  · simp [hd, eq_comm]
  · simp [hd, truncate_neg, eq_comm]

/-- An angle of 90 degrees. -/
theorem angle_honoured_ninety :
    let msg := "001010.00090.000010025009010".toList
    let g := Globals.init.interpretProtocol oneSecond msg
    HonoursAngle g (decodeHostData oneSecond.pow msg 0) 9000 ↔ (100 : Int) ∣ 9000 := by
  have hf : Accepts "001010.00090.000010025009010".toList 0
      ⟨0, 1, 10, 0, 90, 0, 0, 1, 2500, 90, 1, 0⟩ := ⟨by decide +kernel, by decide, by decide⟩
  exact angle_honoured_iff oneSecond hf ⟨0, [], by decide +kernel, by decide +kernel⟩
    (by decide +kernel)

/-- Half a degree is cut off, and the motor is told to stay. -/
theorem half_degree_lost :
    let msg := "001010.00000.500010025009010".toList
    let g := Globals.init.interpretProtocol oneSecond msg
    Accepts msg 0 ⟨0, 1, 10, 0, 0, 50, 0, 1, 2500, 90, 1, 0⟩ ∧
      IsNext g (decodeHostData oneSecond.pow msg 0) ∧
      (decodeHostData oneSecond.pow msg 0).direction = 1 ∧
      rotation 50 = 6905 ∧ commands g = [.setSpeed 10, .move 0] ∧
      ¬ HonoursAngle g (decodeHostData oneSecond.pow msg 0) 50 :=
  ⟨⟨by decide +kernel, by decide, by decide⟩, ⟨0, [], by decide +kernel, by decide +kernel⟩,
    by decide +kernel, by decide +kernel, by decide +kernel, by decide +kernel⟩

/-! ### Two states -/

variable (s speakerID)

/-- **A command depends on its own message alone exactly for the directions 1 and 2**, or
when the two states agree on `iAngle`. -/
theorem own_message_iff {g g' : Globals} (hw : IsNext g (decodeHostData env.pow s speakerID))
    (hw' : IsNext g' (decodeHostData env.pow s speakerID))
    (hd : (decodeHostData env.pow s speakerID).direction ≠ 0) :
    commands g = commands g' ↔ (decodeHostData env.pow s speakerID).direction = 1 ∨
      (decodeHostData env.pow s speakerID).direction = 2 ∨
        g.remote.iAngle = g'.remote.iAngle := by
  have hone : 1 ≤ unitsPerDegree := by
    have := hundred_le_unitsPerDegree
    push_cast at this
    linarith
  rw [commands_eq hw hd, commands_eq hw' hd]
  generalize decodeHostData env.pow s speakerID = d
  simp only [nextAngle, List.cons.injEq, true_and, MotorCall.move.injEq, and_true]
  split_ifs with h1 h2
  · simp [h1]
  · simp [h2]
  · simp only [h1, h2, false_or]
    exact truncate_mul_inj hone

/-- A movement by 90 degrees, and one of direction 9 that waits behind it. -/
def waiting (keys : List Act) : Globals :=
  (machine oneSecond).run ([.tcpPush "001010.00090.000010025009010".toList, .tick busy,
    .tcpPush "009010.00090.000010025009010".toList] ++ keys ++ [.tick busy])

/-- Its command depends on the keys pressed before. -/
theorem command_depends_on_keys : ¬ ∀ (g g' : Globals) (s : Str),
    (machine oneSecond).Reachable g → (machine oneSecond).Reachable g' →
    IsNext g (decodeHostData oneSecond.pow s 0) → IsNext g' (decodeHostData oneSecond.pow s 0) →
    (decodeHostData oneSecond.pow s 0).direction ≠ 0 → commands g = commands g' := by
  intro h
  have hsame := h (waiting []) (waiting [.irPush "KEY_NEXT".toList])
    "009010.00090.000010025009010".toList ((machine oneSecond).reachable_run _)
    ((machine oneSecond).reachable_run _) ⟨1, [], by decide +kernel, by decide +kernel⟩
    ⟨1, [], by decide +kernel, by decide +kernel⟩ (by decide +kernel)
  exact absurd hsame (by decide +kernel)

theorem own_message_keys :
    let msg := "009010.00090.000010025009010".toList
    commands (waiting []) = commands (waiting [.irPush "KEY_NEXT".toList]) ↔
      (decodeHostData oneSecond.pow msg 0).direction = 1 ∨
        (decodeHostData oneSecond.pow msg 0).direction = 2 ∨
          (waiting []).remote.iAngle = (waiting [.irPush "KEY_NEXT".toList]).remote.iAngle :=
  own_message_iff oneSecond "009010.00090.000010025009010".toList 0
    ⟨1, [], by decide +kernel, by decide +kernel⟩ ⟨1, [], by decide +kernel, by decide +kernel⟩
    (by decide +kernel)

end Orbiter.Main
