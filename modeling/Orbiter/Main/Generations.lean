import Orbiter.Main.Events
import Orbiter.Stimuli.Fmod

/-!
# Audio objects and their system

A stop releases the system and creates the next one, but `initAllStimuli` is not run
again: the filters of the first system stay in use.

* `aged_reachable`: before the first stop the library is valid, behind it the low-pass
  filter is stale.
* `live_iff`: **no stale handle is used exactly when no stimulus is looked at behind a
  stop.**
-/

namespace Orbiter.Main

open Cxx Toolbox Stimuli Globals

variable {env : Env}

/-- The tick looks at a stimulus although the library has been stopped. -/
def LoadsStale (env : Env) (g : Globals) : Act → Prop
  | .tick _ => g.stimuliLib.earlyStop = true ∧
      (g.afterMessage env).stimuliLib.playback.candidate ≠ none
  | _ => False

theorem aged_queue (lib : StimuliLibrary) (queue : List Ref) (h : lib.Aged) :
    StimuliLibrary.Aged { lib with stimuliQueue := queue } := by
  refine h.moves (Or.inl ⟨[], ?_⟩)
  exact ⟨(List.append_nil _).symm, rfl, rfl, rfl, by simp, fun _ => Or.inl, by simp⟩

theorem aged_afterMessage {g : Globals} (h : g.stimuliLib.Aged) (env : Env) :
    (g.afterMessage env).stimuliLib.Aged := library_afterMessage aged_queue env h

/-- A tick goes on within its system or stops it. -/
theorem moves_timerFunc {g : Globals} (hg : (machine env).Reachable g) (answers : Answers) :
    (g.afterMessage env).stimuliLib.Moves (g.timerFunc env answers).stimuliLib := by
  obtain ⟨hinv, -⟩ := (stimuliInvariant.of_reachable hg).afterMessage (known_heap hg) env
  obtain ⟨cs, hstep⟩ := stimuliStep_timerFunc hg answers
  exact StimuliLibrary.StimuliStep.moves hinv.owes hstep

theorem aged_reachable (env : Env) : (machine env).Invariant fun g => g.stimuliLib.Aged :=
  library_invariant StimuliLibrary.aged_init aged_queue fun _ answers hg h =>
    h.moves (moves_timerFunc hg answers)

/-- A look behind a stop uses a stale handle. -/
theorem not_live_tick {g : Globals} (hg : (machine env).Reachable g) {answers : Answers}
    (h : LoadsStale env g (.tick answers)) :
    ¬ fmod.Always Live (g.timerFunc env answers).stimuliLib.calls := by
  obtain ⟨hearly, hcandidate⟩ := h
  obtain ⟨r, hr⟩ := Option.ne_none_iff_exists'.mp hcandidate
  have haged := aged_afterMessage ((aged_reachable env).of_reachable hg) env
  obtain ⟨x, hx, -, hstale⟩ := haged.lowpass
  rw [show (g.timerFunc env answers).stimuliLib = _ from
    congrArg Prod.snd (stimuli_timerFunc env g answers)]
  refine StimuliLibrary.not_live_processStimuli haged.system hx (hstale ?_) hr _ _
  obtain ⟨queue, hlib⟩ := afterMessage_stimuliLib env g
  rw [hlib]
  exact hearly

/-- Without a stimulus to look at, a tick owes what was owed before it, if that is
nothing. -/
theorem fraction_of_candidate_none {g : Globals}
    (hc : (g.afterMessage env).stimuliLib.playback.candidate = none)
    (hf : (g.afterMessage env).stimuliLib.dFractionOfAudioFileLeftToPlay = 0)
    (answers : Answers) :
    (g.timerFunc env answers).stimuliLib.dFractionOfAudioFileLeftToPlay = 0 := by
  obtain ⟨hj, hq⟩ := Option.or_eq_none_iff.mp hc
  have htick := congrArg (fun out => out.2.fraction) (playback_timerFunc env g answers)
  rw [Playback.tick_nil _ _ hj (List.head?_eq_none_iff.mp hq)] at htick
  have hf' : (g.afterMessage env).stimuliLib.playback.fraction = 0 := hf
  rw [hf', if_neg (by norm_num)] at htick
  exact htick.trans hf'

/-- Behind a stop, nothing is owed as long as no stale handle has been used. -/
theorem settled (env : Env) : (machine env).Invariant fun g =>
    g.stimuliLib.earlyStop = true → fmod.Always Live g.stimuliLib.calls →
      g.stimuliLib.dFractionOfAudioFileLeftToPlay = 0 where
  init := nofun
  step := by
    intro g a hg h
    cases a with
    | tcpPush msg => exact h
    | irPush code => exact h
    | tick answers =>
      intro hearly hlive
      rcases moves_timerFunc hg answers with ⟨cs, hgoes⟩ | hstops
      · obtain ⟨queue, hlib⟩ := afterMessage_stimuliLib env g
        have hbefore : g.stimuliLib.earlyStop = true := by
          rw [← hgoes.earlyStop.symm.trans hearly, hlib]
        apply fraction_of_candidate_none
        · by_contra hc
          exact not_live_tick hg ⟨hbefore, hc⟩ hlive
        · rw [hlib]
          exact h hbefore (hlive.of_prefix (calls_prefix_tick env g answers))
      · exact hstops.stopped.fraction

/-- Nothing is looked at, and nothing is owed: the tick only updates the system. -/
theorem live_of_idle {g : Globals} (hg : (machine env).Reachable g)
    (hlive : fmod.Always Live g.stimuliLib.calls)
    (hc : (g.afterMessage env).stimuliLib.playback.candidate = none)
    (hf : g.stimuliLib.dFractionOfAudioFileLeftToPlay = 0) (answers : Answers) :
    fmod.Always Live (g.timerFunc env answers).stimuliLib.calls := by
  obtain ⟨hj, hq⟩ := Option.or_eq_none_iff.mp hc
  obtain ⟨newQueue, hlib⟩ := afterMessage_stimuliLib env g
  obtain ⟨cs, hstep⟩ := stimuliStep_timerFunc hg answers
  rw [TickStep] at hstep
  generalize hout : ((g.timerFunc env answers).heap, (g.timerFunc env answers).stimuliLib) = out
    at hstep
  rw [show (g.timerFunc env answers).stimuliLib = out.2 from congrArg Prod.snd hout]
  have hempty : (g.afterMessage env).stimuliLib.stimuliQueue = [] := List.head?_eq_none_iff.mp hq
  cases hstep with
  | hijacked r hijacked => exact absurd (hj.symm.trans hijacked) (by simp)
  | take front rest free queue => exact absurd (hempty.symm.trans queue) (by simp)
  | remainder free queue owed =>
    have howed := StimuliLibrary.fraction_ne_zero owed
    rw [hlib] at howed
    exact absurd hf howed
  | idle =>
    rw [hlib]
    exact Machine.always_append.mpr ⟨hlive, by simp [Live, Call.handles]⟩
  | play front rest free queue => exact absurd (hempty.symm.trans queue) (by simp)
  | pop front rest free queue => exact absurd (hempty.symm.trans queue) (by simp)

/-- **No stale handle is used exactly when no stimulus is looked at behind a stop.** -/
theorem live_iff (env : Env) (acts : List Act) :
    fmod.Always Live ((machine env).run acts).stimuliLib.calls ↔
      ∀ x ∈ (machine env).steps acts, ¬ LoadsStale env x.1 x.2 := by
  refine library_iff_steps (P := fun lib => fmod.Always Live lib.calls)
    (G := fun g a => ¬ LoadsStale env g a) ?_ (fun _ _ => id) (fun _ _ => id) ?_ acts
  · exact (StimuliLibrary.aged_init.valid rfl).used
  · intro g answers hg
    constructor
    · intro hlive
      refine ⟨Machine.Always.of_prefix hlive (calls_prefix_tick env g answers), ?_⟩
      exact fun hstale => not_live_tick hg hstale hlive
    · intro h
      obtain ⟨hlive, hfresh⟩ := h
      cases hearly : g.stimuliLib.earlyStop with
      | false =>
        have haged := aged_afterMessage ((aged_reachable env).of_reachable hg) env
        obtain ⟨queue, hlib⟩ := afterMessage_stimuliLib env g
        exact haged.used (by rw [hlib]; exact hearly) (moves_timerFunc hg answers)
      | true =>
        apply live_of_idle hg hlive
        · by_contra hc
          exact hfresh ⟨hearly, hc⟩
        · exact (settled env).of_reachable hg hearly hlive

/-- A movement-bound stimulus that ends in its first tick, and a load behind it. -/
theorem filter_outlives_system : ¬ ∀ acts : List Act,
    fmod.Always Live ((machine oneSecond).run acts).stimuliLib.calls := by
  intro h
  have hlive := h [.tcpPush "000010.00000.000019911119010".toList, .tick arrived,
    .tcpPush "000010.00000.000020005009010".toList, .tick arrived]
  exact absurd hlive (by decide +kernel)

end Orbiter.Main
