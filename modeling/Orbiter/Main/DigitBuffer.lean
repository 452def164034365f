import Orbiter.Main.Keys

/-!
# The digit buffer

`cNumb` holds three digits.  The digit keys write at `iNumbOffs`, which every movement
and most keys advance; the PLAY and STOP keys clear the buffer in a loop of their own,
which runs to index 3.

* `iNumbOffs_le`: `iNumbOffs` stays in the buffer over every run.
* `inBounds_act`: **of all keys only PLAY and STOP leave the buffer.**
* `inBounds_iff`: **every index is in bounds exactly in the runs where no tick acts on
  PLAY or STOP.**
-/

namespace Orbiter.Main

open Cxx Toolbox Stimuli Globals

/-- An index into `cNumb` is in bounds. -/
def MotorCall.InBounds : MotorCall → Prop
  | .cNumb index => index ≤ 2
  | _ => True

instance (c : MotorCall) : Decidable c.InBounds := by
  cases c <;> unfold MotorCall.InBounds <;> infer_instance

namespace Remote

variable {r : Remote}

def InBounds (r : Remote) : Prop := ∀ c ∈ r.calls, c.InBounds

instance (r : Remote) : Decidable r.InBounds := by unfold InBounds; infer_instance

theorem inBounds_append {r r' : Remote} {cs : List MotorCall} (h : r'.calls = r.calls ++ cs) :
    r'.InBounds ↔ r.InBounds ∧ ∀ c ∈ cs, c.InBounds := by
  simp only [InBounds, h, List.mem_append, or_imp, forall_and]

/-! ### What advances the offset -/

theorem calcTargetPosition_iNumbOffs_le (r : Remote) : r.calcTargetPosition.iNumbOffs ≤ 2 := by
  show (if r.iNumbOffs < 2 then r.iNumbOffs + 1 else 0) ≤ 2
  split_ifs <;> omega

theorem startMovement_calls (r : Remote) (d : HostData) :
    ∃ cs, (r.startMovement d).calls = r.calls ++ cs ∧ ∀ c ∈ cs, c.InBounds := by
  simp only [startMovement]
  split_ifs <;> first
    | exact ⟨[], (List.append_nil _).symm, by simp⟩
    | exact ⟨[.setSpeed d.speed, .move _], rfl, by simp [MotorCall.InBounds]⟩

theorem startMovement_iNumbOffs_le (h : r.iNumbOffs ≤ 2) (d : HostData) :
    (r.startMovement d).iNumbOffs ≤ 2 := by
  rw [startMovement]
  split_ifs <;> first | exact h | exact calcTargetPosition_iNumbOffs_le _

theorem act_iNumbOffs_le (h : r.iNumbOffs ≤ 2) (key : Taste) : (r.act key).iNumbOffs ≤ 2 := by
  cases key <;> first
    | exact h
    | exact Nat.zero_le 2
    | exact calcTargetPosition_iNumbOffs_le _

def actCalls (r : Remote) (key : Taste) : List MotorCall :=
  match key with
  | .play => [.move r.iTargetPosition, .cNumb 0, .cNumb 1, .cNumb 2, .cNumb 3]
  | .stop => [.halt, .cNumb 0, .cNumb 1, .cNumb 2, .cNumb 3]
  | key => if key.digit.isSome then [.cNumb r.iNumbOffs] else []

theorem act_calls (r : Remote) (key : Taste) :
    (r.act key).calls = r.calls ++ r.actCalls key := by
  cases key <;> simp [act, actCalls, Taste.digit, clearCNumb, setCNumb, calcTargetPosition, log]

/-- **Of all keys only PLAY and STOP leave the buffer.** -/
theorem inBounds_act (h : r.iNumbOffs ≤ 2) (key : Taste) :
    (r.act key).InBounds ↔ r.InBounds ∧ key ≠ .play ∧ key ≠ .stop := by
  rw [inBounds_append (r.act_calls key)]
  refine and_congr_right fun _ => ?_
  cases key <;> simp [actCalls, Taste.digit, MotorCall.InBounds, h]

end Remote

variable {env : Env}

/-! ### Every run -/

def ClearsDigits (g : Globals) : Act → Prop
  | .tick _ => g.pressed = some .play ∨ g.pressed = some .stop
  | _ => False

instance (g : Globals) : (a : Act) → Decidable (ClearsDigits g a)
  | .tcpPush _ => inferInstanceAs (Decidable False)
  | .irPush _ => inferInstanceAs (Decidable False)
  | .tick _ => inferInstanceAs (Decidable (g.pressed = some .play ∨ g.pressed = some .stop))

theorem digits_afterMovement (env : Env) {g : Globals} (h : g.remote.iNumbOffs ≤ 2)
    (answers : Answers) :
    (g.afterMovement env answers).remote.iNumbOffs ≤ 2 ∧
      ((g.afterMovement env answers).remote.InBounds ↔ g.remote.InBounds) := by
  rcases remote_afterMovement env g answers with hm | ⟨d, hm⟩ <;> rw [hm]
  · exact ⟨h, Iff.rfl⟩
  · obtain ⟨cs, hcalls, hcs⟩ := g.remote.startMovement_calls d
    refine ⟨Remote.startMovement_iNumbOffs_le h d, ?_⟩
    rw [Remote.inBounds_append hcalls, and_iff_left hcs]

/-- **`iNumbOffs` stays in the buffer.** -/
theorem iNumbOffs_le : (machine env).Invariant fun g => g.remote.iNumbOffs ≤ 2 where
  init := Nat.zero_le 2
  step := by
    intro g a _ h
    cases a with
    | tcpPush msg => exact h
    | irPush code => exact h
    | tick answers =>
      have hmove := (digits_afterMovement env h answers).1
      show (g.timerFunc env answers).remote.iNumbOffs ≤ 2
      rw [remote_timerFunc]
      cases g.pressed with
      | none => exact hmove
      | some key => exact Remote.act_iNumbOffs_le hmove key

/-- **Every index is in bounds exactly in the runs where no tick acts on PLAY or
STOP.** -/
theorem inBounds_iff (env : Env) (acts : List Act) :
    ((machine env).run acts).remote.InBounds ↔
      ∀ x ∈ (machine env).steps acts, ¬ ClearsDigits x.1 x.2 := by
  refine Machine.run_iff_steps (P := fun g => g.remote.InBounds)
    (G := fun g a => ¬ ClearsDigits g a) ?_ ?_ acts
  · exact fun c hc => absurd hc List.not_mem_nil
  · intro g a hg
    cases a with
    | tcpPush msg => exact ⟨fun h => ⟨h, nofun⟩, And.left⟩
    | irPush code => exact ⟨fun h => ⟨h, nofun⟩, And.left⟩
    | tick answers =>
      obtain ⟨hoffs, hmove⟩ := digits_afterMovement env (iNumbOffs_le.of_reachable hg) answers
      show (g.timerFunc env answers).remote.InBounds ↔ _
      rw [← hmove, remote_timerFunc, ClearsDigits]
      cases g.pressed with
      | none => simp [Remote.InBounds]
      | some key =>
        rw [not_or, Option.some.injEq, Option.some.injEq]
        exact Remote.inBounds_act hoffs key

/-- STOP clears a digit behind the buffer. -/
theorem stop_leaves_buffer :
    ¬ ∀ acts : List Act, ((machine oneSecond).run acts).remote.InBounds := by
  intro h
  exact absurd (h [.irPush "20 00 KEY_STOP RM-D420".toList, .tick arrived]) (by decide +kernel)

end Orbiter.Main
