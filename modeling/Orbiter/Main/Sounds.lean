import Orbiter.Main.Events
import Orbiter.Stimuli.FailedLoad
import Orbiter.Stimuli.Sounds

/-!
# Sounds over whole runs

Looking at a stimulus loads it, and loading it again replaces the sound, the channel and
the volume of the one that is heard.

* `held_reachable`: between two ticks `audio` holds the sound created last.
* `issued_reachable`: between two ticks the channel is one that FMOD has made.
* `balanced_iff`: **sounds are released before they are replaced exactly when every tick
  creates at most one, and that only while `audio` holds none.**
* `not_handlesKept`: **no tick leaves the handles of a movement-bound stimulus alone.**
-/

namespace Orbiter.Main

open Cxx Toolbox Stimuli Globals

variable {env : Env}

theorem held_queue (lib : StimuliLibrary) (queue : List Ref) (h : lib.Held) :
    StimuliLibrary.Held { lib with stimuliQueue := queue } :=
  ⟨h.audio, h.fsystem, h.system, h.held, h.holdsSound⟩

theorem sounding_timerFunc {g : Globals} (hg : (machine env).Reachable g) (answers : Answers) :
    (g.afterMessage env).stimuliLib.Sounding (g.timerFunc env answers).stimuliLib
      ((g.afterMessage env).stimuliLib.soundsCreated (g.afterMessage env).heap)
      ((g.afterMessage env).stimuliLib.StopsSounding env.toFiles (g.afterMessage env).heap
        (StimuliLibrary.moving (g.timerFunc env answers).movementQueue answers)
        answers.finishedReached) := by
  obtain ⟨hinv, -⟩ := (stimuliInvariant.of_reachable hg).afterMessage (known_heap hg) env
  obtain ⟨cs, hstep⟩ := stimuliStep_timerFunc hg answers
  exact StimuliLibrary.StimuliStep.sounding hinv.owes hstep

theorem held_reachable (env : Env) : (machine env).Invariant fun g => g.stimuliLib.Held :=
  library_invariant StimuliLibrary.held_init held_queue fun _ answers hg h =>
    h.sounding (sounding_timerFunc hg answers)

/-- **The channel is always one that FMOD has made.** -/
theorem issued_reachable (env : Env) : (machine env).Invariant fun g => g.stimuliLib.Issued := by
  refine library_invariant ?_ (fun _ _ h => h) ?_
  · intro x hx
    have hnone : StimuliLibrary.init.channel = none := rfl
    exact absurd (hnone.symm.trans hx) (by simp)
  · intro g answers hg h
    exact h.sounding (sounding_timerFunc hg answers)

/-! ### Released before replaced -/

/-- Behind the step at most one sound is left that is not released. -/
def AtMostOneSound (env : Env) (g : Globals) (a : Act) : Prop :=
  (step env g a).stimuliLib.sounds.unreleased.length ≤ 1

instance (env : Env) (g : Globals) (a : Act) : Decidable (AtMostOneSound env g a) := by
  unfold AtMostOneSound; infer_instance

/-- The tick creates at most one sound, and that only while `audio` holds none. -/
def CreatesInTime (env : Env) (g : Globals) : Act → Prop
  | .tick _ =>
    (g.afterMessage env).stimuliLib.soundsCreated (g.afterMessage env).heap ≤ 1 ∧
      ((g.afterMessage env).stimuliLib.soundsCreated (g.afterMessage env).heap ≠ 0 →
        ¬ g.stimuliLib.HoldsSound)
  | _ => True

def EndsInStop (env : Env) (g : Globals) : Act → Prop
  | .tick answers => (g.afterMessage env).stimuliLib.StopsSounding env.toFiles
      (g.afterMessage env).heap
      (StimuliLibrary.moving (g.timerFunc env answers).movementQueue answers)
      answers.finishedReached
  | _ => False

theorem afterMessage_holdsSound (env : Env) (g : Globals) :
    (g.afterMessage env).stimuliLib.HoldsSound ↔ g.stimuliLib.HoldsSound := by
  obtain ⟨queue, hlib⟩ := afterMessage_stimuliLib env g
  rw [hlib]
  exact Iff.rfl

theorem afterMessage_sounds (env : Env) (g : Globals) :
    (g.afterMessage env).stimuliLib.sounds = g.stimuliLib.sounds := by
  rw [StimuliLibrary.sounds, (afterMessage_frame env g).calls]
  rfl

/-- Behind one sound at most, a tick leaves at most one if it stops or creates in time. -/
theorem atMostOneSound_tick {g : Globals} (hg : (machine env).Reachable g)
    (hone : g.stimuliLib.sounds.unreleased.length ≤ 1) (answers : Answers) :
    AtMostOneSound env g (.tick answers) ↔
      EndsInStop env g (.tick answers) ∨ CreatesInTime env g (.tick answers) := by
  have hheld := (held_reachable env).of_reachable hg
  have hlength := (library_afterMessage held_queue env hheld).length_unreleased
    (sounding_timerFunc hg answers)
  rw [afterMessage_sounds] at hlength
  have hholds : g.stimuliLib.HoldsSound ↔ 0 < g.stimuliLib.sounds.unreleased.length := by
    rw [hheld.holdsSound_iff, List.length_pos_iff]
  simp only [AtMostOneSound, step, EndsInStop, CreatesInTime, hlength, hholds]
  split_ifs with hstops
  · exact iff_of_true (Nat.zero_le 1) (Or.inl hstops)
  · rw [or_iff_right hstops]
    omega

/-- **Sounds are released before they are replaced exactly when every tick creates at most
one, and that only while `audio` holds none**: for what is left behind a tick, a tick that
ends in the stop does no harm. -/
theorem balanced_iff (env : Env) (acts : List Act) :
    ((machine env).Always (AtMostOneSound env) acts ↔
      ∀ x ∈ (machine env).steps acts, EndsInStop env x.1 x.2 ∨ CreatesInTime env x.1 x.2) ∧
    (sounds.Always KeepsSound ((machine env).run acts).stimuliLib.calls ↔
      ∀ x ∈ (machine env).steps acts, CreatesInTime env x.1 x.2) := by
  constructor
  · refine Machine.always_step_iff_steps (m := machine env)
      (I := fun g => g.stimuliLib.sounds.unreleased.length ≤ 1)
      (G := fun g a => EndsInStop env g a ∨ CreatesInTime env g a) (Nat.zero_le 1) ?_ acts
    intro g a hg hone
    cases a with
    | tcpPush msg => exact iff_of_true hone (Or.inr trivial)
    | irPush code => exact iff_of_true hone (Or.inr trivial)
    | tick answers => exact atMostOneSound_tick hg hone answers
  · refine library_iff_steps (P := fun lib => sounds.Always KeepsSound lib.calls)
      (G := fun g a => CreatesInTime env g a) ?_ (fun _ _ => trivial) (fun _ _ => trivial) ?_ acts
    · have hinit : ∀ c ∈ StimuliLibrary.init.calls, c.isSound = false := by decide
      exact Machine.alwaysFrom_of_forall
        (fun c hc s => (sounds_step_of_not_isSound (hinit c hc) s).2) _
    · intro g answers hg
      have hheld := library_afterMessage held_queue env ((held_reachable env).of_reachable hg)
      have hkeeps := hheld.keepsSound_iff (sounding_timerFunc hg answers)
      rw [(afterMessage_frame env g).calls, afterMessage_holdsSound] at hkeeps
      exact hkeeps

/-- The look ahead at a stimulus and its load create two sounds. -/
theorem look_ahead_leaks : ¬ ∀ acts : List Act,
    (machine oneSecond).Always (AtMostOneSound oneSecond) acts := by
  intro h
  have hlast := h [.tcpPush "000010.00000.000010005009010".toList, .tick arrived]
  exact absurd hlast (by decide +kernel)

/-! ### The handles of a movement-bound stimulus -/

/-- The movement-bound stimulus `r` has been started, and sounds. -/
def SoundsBound (g : Globals) (r : Ref) : Prop :=
  g.stimuliLib.hostDataOfHijackedProtocol = some r ∧ .playInfinitely r ∈ g.stimuliLib.calls

instance (g : Globals) (r : Ref) : Decidable (SoundsBound g r) := by
  unfold SoundsBound; infer_instance

def replaces : Call → Bool
  | .createSound _ => true
  | .playSound _ _ _ channel => channel.isSome
  | .playDSP _ _ channel => channel.isSome
  | _ => false

/-- The step leaves the playback handles alone. -/
structure HandlesKept (env : Env) (g : Globals) (a : Act) : Prop where
  calls : ∀ c ∈ callsBy env g a, replaces c = false
  audio : (step env g a).stimuliLib.audio = g.stimuliLib.audio
  channel : (step env g a).stimuliLib.channel = g.stimuliLib.channel
  volume : (step env g a).stimuliLib.volumeOf g.stimuliLib.channel =
    g.stimuliLib.volumeOf g.stimuliLib.channel

/-- **No tick leaves the handles of a movement-bound stimulus alone**: the check whether it
is still pending loads it again. -/
theorem not_handlesKept {g : Globals} (hg : (machine env).Reachable g) {r : Ref}
    (hsounds : SoundsBound g r) (answers : Answers) : ¬ HandlesKept env g (.tick answers) := by
  have hj : (g.afterMessage env).stimuliLib.hostDataOfHijackedProtocol = some r :=
    (afterMessage_frame env g).hostDataOfHijackedProtocol.trans hsounds.1
  obtain ⟨hinv, -⟩ := (stimuliInvariant.of_reachable hg).afterMessage (known_heap hg) env
  obtain ⟨-, known⟩ := hinv.playable r hj
  have hcreated :
      (g.afterMessage env).stimuliLib.soundsCreated (g.afterMessage env).heap ≠ 0 := by
    rw [StimuliLibrary.soundsCreated, hj]
    simp only [StimuliLibrary.soundsLoaded, known, if_true]
    exact Nat.one_ne_zero
  obtain ⟨cs, x, hcalls, hx⟩ := (sounding_timerFunc hg answers).exists_createSound hcreated
  rw [(afterMessage_frame env g).calls] at hcalls
  have hlogged : cs <+: callsBy env g (.tick answers) := callsBy_of_prefix hcalls
  intro hkept
  exact absurd (hkept.calls _ (hlogged.subset hx)) (by simp [replaces])

/-- A movement-bound stimulus that has been started while the motor moves. -/
def boundSounding : Globals :=
  (machine oneSecond).run [.tcpPush "000010.00000.000019911119010".toList, .tick busy]

/-- The next tick starts another channel, paused, and forgets the one that sounds. -/
theorem bound_channel_forgotten : ¬ ∀ (g : Globals) (r : Ref) (answers : Answers),
    (machine oneSecond).Reachable g → SoundsBound g r →
    (g.timerFunc oneSecond answers).stimuliLib.hostDataOfHijackedProtocol = some r →
    HandlesKept oneSecond g (.tick answers) := by
  intro h
  have hkept := h boundSounding 0 busy ((machine oneSecond).reachable_run _) (by decide +kernel)
    (by decide +kernel)
  exact absurd hkept.channel (by decide +kernel)

theorem not_handlesKept_boundSounding : SoundsBound boundSounding 0 ∧
    ¬ HandlesKept oneSecond boundSounding (.tick busy) := by
  have hsounds : SoundsBound boundSounding 0 := by decide +kernel
  exact ⟨hsounds, not_handlesKept ((machine oneSecond).reachable_run _) hsounds busy⟩

end Orbiter.Main
