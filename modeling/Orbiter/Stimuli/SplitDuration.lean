import Orbiter.Stimuli.Playback

/-!
# The split of a long duration

A stimulus that is longer than its sound is looped, and what is left over is played by
a second call of `playStimuli`.

* `SplitsDuration`: the loops requested, the remainder, and the call that plays it.
* `splitsDuration`: **the loops and the remainder add up to the desired duration**, in
  exact arithmetic.
-/

namespace Orbiter.Stimuli

open Cxx

namespace StimuliLibrary

variable (files : Files) (lib : StimuliLibrary)

/-- The call of `playStimuli` splits the desired duration: so many whole repetitions of
the sound, one more than the loops that are requested, and a remainder.  The remainder
is cut from one more call, or is no more than a ten-thousandth of the sound. -/
structure SplitsDuration (clockDSP : Nat) : Prop where
  conserved : lib.uiDesiredDurationMs / lib.audioFileLengthMs * lib.audioFileLengthMs +
    (lib.playStimuli files clockDSP).uiDesiredDurationMs = lib.uiDesiredDurationMs
  lt_length : (lib.playStimuli files clockDSP).uiDesiredDurationMs < lib.audioFileLengthMs
  requested : (lib.playStimuli files clockDSP).calls = lib.calls ++
    [.playStimuli lib.audio lib.audioFileLengthMs lib.uiDesiredDurationMs
        lib.dFractionOfAudioFileLeftToPlay,
      .setLoopCount lib.channel ((lib.uiDesiredDurationMs / lib.audioFileLengthMs : Nat) - 1),
      .setMode lib.channel .normal, .setPaused lib.channel false, .setPaused lib.channel false]
  remainder : (lib.playStimuli files clockDSP).bGetIsThereAFractionLeftToPlay = true →
    ∀ cs clockDSP', ((lib.playStimuli files clockDSP).log cs).playCases files clockDSP' =
        ((lib.playStimuli files clockDSP).log cs).playCut files clockDSP' ∧
      ((lib.playStimuli files clockDSP).playStimuli files
        clockDSP').dFractionOfAudioFileLeftToPlay = 0
  rest : (lib.playStimuli files clockDSP).bGetIsThereAFractionLeftToPlay = false →
    ((lib.playStimuli files clockDSP).uiDesiredDurationMs : ℚ) / lib.audioFileLengthMs ≤ 0.0001

variable {lib}

theorem playStimuli_of_longer (h0 : lib.audioFileLengthMs ≠ 0)
    (h : lib.audioFileLengthMs < lib.uiDesiredDurationMs) (clockDSP : Nat) :
    (lib.playStimuli files clockDSP).playback = { lib.playback with
      fraction := files.double.fraction lib.uiDesiredDurationMs lib.audioFileLengthMs
      desired := files.double.rest lib.uiDesiredDurationMs lib.audioFileLengthMs } := by
  rw [playStimuli_playback, Playback.play, if_neg (show ¬ lib.playback.length = 0 from h0),
    if_pos (show lib.playback.length < lib.playback.desired from h)]
  rfl

theorem playCases_of_shorter (lib : StimuliLibrary)
    (h : lib.uiDesiredDurationMs < lib.audioFileLengthMs) (clockDSP : Nat) :
    lib.playCases files clockDSP = lib.playCut files clockDSP := by
  rw [playCases, if_neg (by omega), if_neg (by omega), if_pos h]

theorem playStimuli_of_shorter (h : lib.uiDesiredDurationMs < lib.audioFileLengthMs)
    (clockDSP : Nat) : (lib.playStimuli files clockDSP).dFractionOfAudioFileLeftToPlay = 0 := by
  rw [playStimuli, playCases_of_shorter files (lib.log _) h]
  rfl

/-- **The loops and the remainder add up to the desired duration**, in exact arithmetic. -/
theorem splitsDuration (hexact : files.double = Rounding.exact) (h0 : 0 < lib.audioFileLengthMs)
    (h : lib.audioFileLengthMs < lib.uiDesiredDurationMs) (clockDSP : Nat) :
    lib.SplitsDuration files clockDSP := by
  have hplayback := playStimuli_of_longer files h0.ne' h clockDSP
  have hdesired : (lib.playStimuli files clockDSP).uiDesiredDurationMs =
      lib.uiDesiredDurationMs % lib.audioFileLengthMs := by
    refine (congrArg Playback.desired hplayback).trans ?_
    rw [hexact, Rounding.exact_rest h0]
  have hlength : (lib.playStimuli files clockDSP).audioFileLengthMs = lib.audioFileLengthMs :=
    congrArg Playback.length hplayback
  have hfraction : (lib.playStimuli files clockDSP).dFractionOfAudioFileLeftToPlay =
      (lib.uiDesiredDurationMs % lib.audioFileLengthMs : Nat) / lib.audioFileLengthMs := by
    refine (congrArg Playback.fraction hplayback).trans ?_
    rw [hexact, Rounding.exact_fraction]
  have hlt : (lib.playStimuli files clockDSP).uiDesiredDurationMs < lib.audioFileLengthMs := by
    rw [hdesired]
    exact Nat.mod_lt _ h0
  refine ⟨?_, hlt, ?_, ?_, ?_⟩
  · rw [hdesired]
    exact Nat.div_add_mod' _ _
  · have hloops : (truncate (files.double.round (lib.uiDesiredDurationMs /
        lib.audioFileLengthMs))).toNat = lib.uiDesiredDurationMs / lib.audioFileLengthMs := by
      rw [hexact]
      exact Rounding.exact_multiple
    simp only [playStimuli, playCases, log, h0.ne', h, if_true, if_false, playLooped, hloops,
      List.append_assoc]
    rfl
  · intro _ cs clockDSP'
    rw [← hlength] at hlt
    exact ⟨playCases_of_shorter files ((lib.playStimuli files clockDSP).log cs) hlt clockDSP',
      playStimuli_of_shorter files hlt clockDSP'⟩
  · intro hrest
    rw [bGetIsThereAFractionLeftToPlay, decide_eq_false_iff_not, not_lt, hfraction] at hrest
    rwa [hdesired]

end StimuliLibrary

end Orbiter.Stimuli
