import Orbiter.Main.Events
import Orbiter.Stimuli.Clocks

/-!
# Stop clocks over whole runs

* `clocked_reachable`: between two ticks the stop clocks are in one of the three states.
* `noLeak_iff`: **no stop clock leaks exactly when no stimulus is played to its end while
  `channelgroup` is the master group.**
-/

namespace Orbiter.Main

open Cxx Toolbox Stimuli Globals

variable {env : Env}

/-- The tick plays a stimulus of the queue at least once to its end, although the master
group of the system, now in `channelgroup`, has been given a stop clock. -/
def InheritsClock (env : Env) (g : Globals) : Act → Prop
  | .tick _ => ∃ front, StimuliLibrary.Inherits env.toFiles (g.afterMessage env).heap
      (g.afterMessage env).stimuliLib front
  | _ => False

theorem clocked_queue (lib : StimuliLibrary) (queue : List Ref) (h : lib.Clocked) :
    StimuliLibrary.Clocked { lib with stimuliQueue := queue } := h.of_eq rfl rfl rfl rfl

theorem clocked_afterMessage {g : Globals} (h : g.stimuliLib.Clocked) (env : Env) :
    (g.afterMessage env).stimuliLib.Clocked := library_afterMessage clocked_queue env h

theorem clocked_reachable (env : Env) :
    (machine env).Invariant fun g => g.stimuliLib.Clocked := by
  refine library_invariant ?_ clocked_queue ?_
  · exact ⟨rfl, ⟨⟨1, 1⟩, rfl, le_refl 1, nofun⟩, .unset rfl rfl nofun⟩
  · intro g answers hg h
    obtain ⟨cs, hstep⟩ := stimuliStep_timerFunc hg answers
    exact StimuliLibrary.StimuliStep.clocked h hstep

/-- **No stop clock leaks exactly when no stimulus is played to its end while
`channelgroup` is the master group.** -/
theorem noLeak_iff (env : Env) (acts : List Act) :
    fmod.Always NoLeak ((machine env).run acts).stimuliLib.calls ↔
      ∀ x ∈ (machine env).steps acts, ¬ InheritsClock env x.1 x.2 := by
  refine library_iff_steps (P := fun lib => fmod.Always NoLeak lib.calls)
    (G := fun g a => ¬ InheritsClock env g a) ?_ (fun _ _ => id) (fun _ _ => id) ?_ acts
  · have hinit : ∀ c ∈ StimuliLibrary.init.calls, c.isPlay = false := by decide
    exact Machine.alwaysFrom_of_forall
      (fun c hc => noLeak_of_not_isPlay (hinit c hc)) _
  · intro g answers hg
    obtain ⟨hinv, -⟩ := (stimuliInvariant.of_reachable hg).afterMessage (known_heap hg) env
    have hclocked := clocked_afterMessage ((clocked_reachable env).of_reachable hg) env
    obtain ⟨cs, hstep⟩ := stimuliStep_timerFunc hg answers
    have hcalls := (afterMessage_frame env g).calls
    have hp := calls_prefix_tick env g answers
    rw [← hcalls] at hp
    have hiff := hstep.noLeak_iff_not_inherits hclocked hinv.owes hp
    rw [hcalls] at hiff
    exact hiff.trans (and_congr_right' not_exists.symm)

/-- A stimulus that is cut, and one that is looped behind it. -/
theorem stop_clock_leaks : ¬ ∀ acts : List Act,
    fmod.Always NoLeak ((machine oneSecond).run acts).stimuliLib.calls := by
  intro h
  have hlast := h [.tcpPush "000010.00000.000010005009010".toList, .tick arrived,
    .tcpPush "000010.00000.000020025009010".toList, .tick arrived]
  exact absurd hlast (by decide +kernel)

end Orbiter.Main
