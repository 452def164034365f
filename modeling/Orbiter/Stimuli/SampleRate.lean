import Orbiter.Stimuli.Library

/-!
# The stop clock of a shortened stimulus

`playStimuli` counts the samples of the desired duration in the file, at the file's
rate, and adds them to the clock of the mixer, which counts at its own.

* `setDelay_playStimuli`: the one stop clock a shortened stimulus is given.
* `stopClock_sub_eq`: it is set after the samples of the desired duration, at the file's
  rate.
* `stopsInTime_iff`: **a shortened stimulus stops after the desired time exactly when
  that duration has as many whole samples at either rate.**
* `sameSamples_iff_eq`: from one second on, only equal rates do.
-/

namespace Orbiter.Stimuli

open Cxx

def Call.isDelay : Call → Bool
  | .setDelay _ _ _ => true
  | _ => false

namespace StimuliLibrary

variable (files : Files) (lib : StimuliLibrary)

/-- The stop clock, before it is cut to 64 bits. -/
def stopClock (clockDSP : Nat) : Int := clockDSP + lib.iSampleLengthOfAudio files

/-- **The stop clock of a shortened stimulus**, on the master group and behind the start
clock. -/
theorem setDelay_playStimuli (h : lib.uiDesiredDurationMs < lib.audioFileLengthMs)
    (clockDSP : Nat) :
    ∃ cs, (lib.playStimuli files clockDSP).calls = lib.calls ++ cs ∧
      cs.filter Call.isDelay =
        [.setDelay (some ⟨lib.fsystem, 0⟩) clockDSP
          (toUnsigned 64 (lib.stopClock files clockDSP))] := by
  have hne : lib.audioFileLengthMs ≠ 0 := by omega
  have hle : ¬ lib.audioFileLengthMs < lib.uiDesiredDurationMs := by omega
  simp only [playStimuli, playCases, log, hne, hle, h, if_true, if_false, playCut,
    getMasterChannelGroup, playSound, List.append_assoc]
  exact ⟨_, rfl, rfl⟩

end StimuliLibrary

/-- `desired` milliseconds have as many whole samples at one rate as at the other: no
sample ends between the two. -/
def SameSamples (f m : ℚ) (desired : Nat) : Prop :=
  ∀ n : Int, (n : ℚ) ≤ desired * f / 1000 ↔ (n : ℚ) ≤ desired * m / 1000

theorem sameSamples_iff {f m : ℚ} (hf : 0 ≤ f) (hm : 0 ≤ m) (desired : Nat) :
    SameSamples f m desired ↔
      truncate (desired * f / 1000) = truncate (desired * m / 1000) :=
  (truncate_eq_truncate_iff (by positivity) (by positivity)).symm

/-- **From one second on, only equal rates have the same samples.** -/
theorem sameSamples_iff_eq (f m : Nat) {desired : Nat} (h : 1000 ≤ desired) :
    SameSamples f m desired ↔ f = m := by
  have hscale : ∀ rate : Nat, ((desired : ℚ) * (rate : ℚ) / 1000) =
      desired / 1000 * ((rate : Int) : ℚ) := by
    intro rate
    push_cast
    ring
  have hone : (1 : ℚ) ≤ desired / 1000 := by
    rw [le_div_iff₀ (by norm_num), one_mul]
    exact_mod_cast h
  rw [sameSamples_iff (by positivity) (by positivity), hscale, hscale, truncate_mul_inj hone]
  exact Int.ofNat_inj

namespace StimuliLibrary

variable {files : Files} {lib : StimuliLibrary} {sound : Sound} {f m : ℚ}

/-- In exact arithmetic the stop clock is set after the samples of the desired duration, at
the rate of the file. -/
theorem stopClock_sub_eq (hexact : files.double = Rounding.exact) (haudio : lib.audio = some sound)
    (hsamples : (files.samples sound.path : ℚ) = lib.audioFileLengthMs * f / 1000)
    (hlength : lib.audioFileLengthMs ≠ 0) (clockDSP : Nat) :
    lib.stopClock files clockDSP - clockDSP = truncate (lib.uiDesiredDurationMs * f / 1000) := by
  have hlength' : (lib.audioFileLengthMs : ℚ) ≠ 0 := by exact_mod_cast hlength
  rw [stopClock, add_sub_cancel_left, iSampleLengthOfAudio, haudio, Option.elim_some, hsamples,
    hexact]
  show truncate (lib.audioFileLengthMs * f / 1000 / lib.audioFileLengthMs *
    lib.uiDesiredDurationMs) = _
  congr 1
  field_simp

/-- **A shortened stimulus stops after the desired time exactly when that duration has
as many whole samples at either rate**: the one stop clock it is given is then, in exact
arithmetic, as far behind the start clock as the desired duration at the rate `m` of the
mixer. -/
theorem stopsInTime_iff (hexact : files.double = Rounding.exact)
    (haudio : lib.audio = some sound) (hf : 0 ≤ f) (hm : 0 ≤ m)
    (hsamples : (files.samples sound.path : ℚ) = lib.audioFileLengthMs * f / 1000)
    (h : lib.uiDesiredDurationMs < lib.audioFileLengthMs) (clockDSP : Nat) :
    (∃ cs, (lib.playStimuli files clockDSP).calls = lib.calls ++ cs ∧
      cs.filter Call.isDelay = [.setDelay (some ⟨lib.fsystem, 0⟩) clockDSP
        (toUnsigned 64 (lib.stopClock files clockDSP))]) ∧
    (lib.stopClock files clockDSP - clockDSP = ⌊(lib.uiDesiredDurationMs * m / 1000 : ℚ)⌋ ↔
      SameSamples f m lib.uiDesiredDurationMs) := by
  refine ⟨lib.setDelay_playStimuli files h clockDSP, ?_⟩
  rw [stopClock_sub_eq hexact haudio hsamples (by omega), sameSamples_iff hf hm,
    truncate_of_nonneg (by positivity : (0 : ℚ) ≤ lib.uiDesiredDurationMs * m / 1000)]

end StimuliLibrary

def pink192k : Files := ⟨fun _ => 1000, fun _ => 192000, Rounding.exact⟩

def halfPink : StimuliLibrary := (StimuliLibrary.init.bLoadStimuli pink192k 2 1 500).2

theorem stopsInTime_halfPink :
    (∃ cs, (halfPink.playStimuli pink192k 4096).calls = halfPink.calls ++ cs ∧
      cs.filter Call.isDelay = [.setDelay (some ⟨halfPink.fsystem, 0⟩) 4096
        (toUnsigned 64 (halfPink.stopClock pink192k 4096))]) ∧
    (halfPink.stopClock pink192k 4096 - (4096 : Nat) =
        ⌊(halfPink.uiDesiredDurationMs * 192000 / 1000 : ℚ)⌋ ↔
      SameSamples 192000 192000 halfPink.uiDesiredDurationMs) :=
  StimuliLibrary.stopsInTime_iff rfl
    (show halfPink.audio = some ⟨⟨1, 5⟩, pathToAudio02PinkNoise⟩ by decide)
    (by norm_num) (by norm_num) (by decide +kernel) (by decide) 4096

/-- At a mixer rate of 48 kHz the half second of the 192 kHz file lasts two seconds. -/
theorem half_second_lasts_two : ¬ ∀ (files : Files) (lib : StimuliLibrary) (sound : Sound)
    (f m : ℚ) (clockDSP : Nat), files.double = Rounding.exact → lib.audio = some sound →
    0 ≤ f → 0 ≤ m →
    (files.samples sound.path : ℚ) = lib.audioFileLengthMs * f / 1000 →
    lib.uiDesiredDurationMs < lib.audioFileLengthMs →
    lib.stopClock files clockDSP - clockDSP = ⌊(lib.uiDesiredDurationMs * m / 1000 : ℚ)⌋ := by
  intro h
  have hpink := h pink192k halfPink ⟨⟨1, 5⟩, pathToAudio02PinkNoise⟩ 192000 48000 4096 rfl
    (by decide) (by norm_num) (by norm_num) (by decide +kernel) (by decide)
  exact absurd hpink (by decide +kernel)

end Orbiter.Stimuli
