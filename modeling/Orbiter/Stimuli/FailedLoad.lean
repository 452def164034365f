import Orbiter.Stimuli.Sounds

/-!
# A load that fails

`bLoadStimuli` returns false for a number it does not know.  By then it has taken over the
duration and dropped the remainder, and may have started an oscillator; afterwards it
still sets the volume of whatever channel it finds.

* `failed_bLoadStimuli`: what a load that fails does.
* `Issued.sounding`: a tick keeps the channel one that FMOD has made.
* `unchanged_iff`: **a load that fails changes nothing exactly when there was nothing to
  change.**
-/

namespace Orbiter.Stimuli

open Cxx Toolbox

/-- The volumes that the channels have been set to; a channel starts with 1. -/
def volumes : Machine (Handle → ℚ) Call where
  init := fun _ => 1
  step v
    | .setVolume (some h) volume => fun h' => if h' = h then volume else v h'
    | _ => v

namespace StimuliLibrary

variable (files : Files) (lib : StimuliLibrary)

/-- The volume of a channel; one of a released system has none. -/
def volumeOf (channel : Option Handle) : Option ℚ :=
  channel.bind fun h => if lib.live h then some (volumes.run lib.calls h) else none

structure Unchanged (lib lib' : StimuliLibrary) : Prop where
  uiDesiredDurationMs : lib'.uiDesiredDurationMs = lib.uiDesiredDurationMs
  dFractionOfAudioFileLeftToPlay :
    lib'.dFractionOfAudioFileLeftToPlay = lib.dFractionOfAudioFileLeftToPlay
  audioFileLengthMs : lib'.audioFileLengthMs = lib.audioFileLengthMs
  pathToCurrentAudioFile : lib'.pathToCurrentAudioFile = lib.pathToCurrentAudioFile
  audio : lib'.audio = lib.audio
  channel : lib'.channel = lib.channel
  volume : lib'.volumeOf lib.channel = lib.volumeOf lib.channel

/-- The load would start the oscillator. -/
def StartsOscillator (nr : Int) : Prop := 2 ≤ nr ∧ nr ≤ 60 ∧ lib.dspSin.any lib.live = true

instance (nr : Int) : Decidable (lib.StartsOscillator nr) := by
  unfold StartsOscillator; infer_instance

/-- There is nothing for the load to change: the duration is the one before, nothing is
owed, the oscillator is not started, and the channel has the volume already. -/
structure NothingToChange (nr : Int) (volume : ℚ) (duration : Nat) : Prop where
  duration : duration = lib.uiDesiredDurationMs
  fraction : lib.dFractionOfAudioFileLeftToPlay = 0
  oscillator : ¬ lib.StartsOscillator nr
  volume : ∀ v, lib.volumeOf lib.channel = some v → v = volume

/-- FMOD has not yet made the channel that it makes next. -/
def NewChannel : Prop := lib.channel ≠ some ⟨lib.fsystem, lib.nextId⟩

instance : Decidable lib.NewChannel := by unfold NewChannel; infer_instance

structure Failed (lib next : StimuliLibrary) (nr : Int) (volume : ℚ) (duration : Nat) : Prop where
  uiDesiredDurationMs : next.uiDesiredDurationMs = duration
  dFractionOfAudioFileLeftToPlay : next.dFractionOfAudioFileLeftToPlay = 0
  audioFileLengthMs : next.audioFileLengthMs = lib.audioFileLengthMs
  pathToCurrentAudioFile : next.pathToCurrentAudioFile = lib.pathToCurrentAudioFile
  audio : next.audio = lib.audio
  fsystem : next.fsystem = lib.fsystem
  channel : next.channel =
    if lib.StartsOscillator nr then some ⟨lib.fsystem, lib.nextId⟩ else lib.channel
  calls : ∃ cs, next.calls = cs ++ [.setVolume next.channel volume]

theorem startOscillator_channel (nr : Int) : (lib.startOscillator nr).channel =
    if lib.StartsOscillator nr then some ⟨lib.fsystem, lib.nextId⟩ else lib.channel := by
  rw [startOscillator]
  by_cases hnr : 2 ≤ nr ∧ nr ≤ 60
  · rw [if_pos hnr]
    show lib.startedDSP.or lib.channel = _
    rw [startedDSP]
    by_cases hdsp : lib.dspSin.any lib.live = true
    · rw [if_pos hdsp, if_pos ⟨hnr.1, hnr.2, hdsp⟩, Option.some_or]
    · rw [if_neg hdsp, if_neg fun h => hdsp h.2.2, Option.none_or]
  · rw [if_neg hnr, if_neg fun h => hnr ⟨h.1, h.2.1⟩]

variable {lib}

/-- **What a load that fails does.** -/
theorem failed_bLoadStimuli {nr : Int} {volume : ℚ} {duration : Nat}
    (h : (lib.bLoadStimuli files nr volume duration).1 = false) :
    lib.Failed (lib.bLoadStimuli files nr volume duration).2 nr volume duration := by
  have hpath : pathToAudio nr = none := by
    rw [← Option.not_isSome_iff_eq_none, ← switchStimulus_fst files
      ((lib.beginLoad nr volume duration).startOscillator nr) nr, Bool.not_eq_true]
    exact h
  have hchannel := (lib.beginLoad nr volume duration).startOscillator_channel nr
  have hmembers : ∀ lib : StimuliLibrary,
      (lib.startOscillator nr).uiDesiredDurationMs = lib.uiDesiredDurationMs ∧
      (lib.startOscillator nr).dFractionOfAudioFileLeftToPlay =
        lib.dFractionOfAudioFileLeftToPlay ∧
      (lib.startOscillator nr).audioFileLengthMs = lib.audioFileLengthMs ∧
      (lib.startOscillator nr).pathToCurrentAudioFile = lib.pathToCurrentAudioFile ∧
      (lib.startOscillator nr).audio = lib.audio ∧
      (lib.startOscillator nr).fsystem = lib.fsystem := by
    intro lib
    rw [startOscillator]
    split_ifs <;> exact ⟨rfl, rfl, rfl, rfl, rfl, rfl⟩
  obtain ⟨hdesired, hfraction, hlength, hpathTo, haudio, hsystem⟩ :=
    hmembers (lib.beginLoad nr volume duration)
  simp only [bLoadStimuli, switchStimulus, hpath]
  exact ⟨hdesired, hfraction, hlength, hpathTo, haudio, hsystem, hchannel, _, rfl⟩

theorem Failed.volumeOf {next : StimuliLibrary} {nr : Int} {volume : ℚ} {duration : Nat}
    (h : lib.Failed next nr volume duration) (hchannel : next.channel = lib.channel) :
    next.volumeOf lib.channel = (lib.volumeOf lib.channel).map fun _ => volume := by
  obtain ⟨cs, hcalls⟩ := h.calls
  cases hc : lib.channel with
  | none => rfl
  | some x =>
    have hlive : next.live x = lib.live x := by rw [live, h.fsystem, live]
    have hvolume : volumes.run next.calls x = volume := by
      rw [hcalls, hchannel, hc, Machine.run_concat]
      exact if_pos rfl
    simp only [StimuliLibrary.volumeOf, Option.bind_some, hlive, hvolume]
    split_ifs <;> rfl

/-- **A load that fails changes nothing exactly when there was nothing to change.** -/
theorem unchanged_iff {nr : Int} {volume : ℚ} {duration : Nat} (hnew : lib.NewChannel)
    (h : (lib.bLoadStimuli files nr volume duration).1 = false) :
    lib.Unchanged (lib.bLoadStimuli files nr volume duration).2 ↔
      lib.NothingToChange nr volume duration := by
  have hfailed := failed_bLoadStimuli files h
  generalize (lib.bLoadStimuli files nr volume duration).2 = next at hfailed
  have hchannel : next.channel = lib.channel ↔ ¬ lib.StartsOscillator nr := by
    rw [hfailed.channel]
    split_ifs with hstarts
    · exact iff_of_false hnew.symm (not_not_intro hstarts)
    · exact iff_of_true rfl hstarts
  have hvolume : (lib.volumeOf lib.channel).map (fun _ => volume) = lib.volumeOf lib.channel ↔
      ∀ v, lib.volumeOf lib.channel = some v → v = volume := by
    cases lib.volumeOf lib.channel with
    | none => simp
    | some v => simp [eq_comm]
  constructor
  · intro hsame
    refine ⟨hfailed.uiDesiredDurationMs.symm.trans hsame.uiDesiredDurationMs,
      hsame.dFractionOfAudioFileLeftToPlay.symm.trans hfailed.dFractionOfAudioFileLeftToPlay,
      hchannel.mp hsame.channel, hvolume.mp ?_⟩
    rw [← hfailed.volumeOf hsame.channel, hsame.volume]
  · intro hnothing
    have hsame := hchannel.mpr hnothing.oscillator
    exact ⟨hfailed.uiDesiredDurationMs.trans hnothing.duration,
      hfailed.dFractionOfAudioFileLeftToPlay.trans hnothing.fraction.symm,
      hfailed.audioFileLengthMs, hfailed.pathToCurrentAudioFile, hfailed.audio, hsame,
      (hfailed.volumeOf hsame).trans (hvolume.mpr hnothing.volume)⟩

/-! ### The channels FMOD has made -/

/-- The channel of the library is one that FMOD has made, now or for an earlier system. -/
def Issued (lib : StimuliLibrary) : Prop :=
  ∀ x, lib.channel = some x →
    x.system < lib.fsystem ∨ (x.system = lib.fsystem ∧ x.id < lib.nextId)

theorem Issued.newChannel (h : lib.Issued) : lib.NewChannel := by
  intro hchannel
  rcases h _ hchannel with hlt | ⟨-, hlt⟩
  · exact absurd hlt (lt_irrefl _)
  · exact absurd hlt (lt_irrefl _)

theorem Issued.makes {lib' : StimuliLibrary} {xs : List Sound} (h : lib.Issued)
    (hmakes : lib.Makes lib' xs) : lib'.Issued := by
  intro x hx
  rw [hmakes.fsystem]
  rcases hmakes.channel x hx with hold | hnew
  · rcases h x hold with hlt | ⟨heq, hlt⟩
    · exact Or.inl hlt
    · exact Or.inr ⟨heq, lt_of_lt_of_le hlt hmakes.nextId⟩
  · exact Or.inr hnew

theorem Issued.stopStimuli (h : lib.Issued) : lib.stopStimuli.Issued := by
  intro x hx
  left
  show x.system < lib.fsystem + 1
  rcases h x hx with hlt | ⟨heq, -⟩ <;> omega

/-- **A tick keeps the channel one that FMOD has made.** -/
theorem Issued.sounding {lib' : StimuliLibrary} {n : Nat} {stops : Prop} (h : lib.Issued)
    (hsounding : lib.Sounding lib' n stops) : lib'.Issued := by
  obtain ⟨last, xs, hmakes, -, ⟨-, htail⟩ | ⟨-, rfl⟩⟩ := hsounding
  · exact (h.makes hmakes).stopStimuli.makes htail
  · exact h.makes hmakes

end StimuliLibrary

def second : Files := ⟨fun _ => 1000, fun _ => 48000, .double⟩

/-- The first stimulus for two and a half seconds, started: half a second is owed. -/
def owingHalf : StimuliLibrary :=
  (StimuliLibrary.init.bLoadStimuli second 1 (9 / 10) 2500).2.playStimuli second 0

/-- The all-zero `HostData` of a rejected message takes the remainder and turns the
volume off. -/
theorem failed_load_takes_remainder : ¬ ∀ (files : Files) (lib : StimuliLibrary) (nr : Int)
    (volume : ℚ) (duration : Nat), lib.Issued →
    (lib.bLoadStimuli files nr volume duration).1 = false →
    lib.Unchanged (lib.bLoadStimuli files nr volume duration).2 := by
  intro h
  have hissued : owingHalf.Issued := by
    intro x hx
    obtain rfl := Option.some.inj ((show owingHalf.channel = some ⟨1, 5⟩ by decide).symm.trans hx)
    decide
  have hsame := h second owingHalf 0 0 0 hissued (by decide)
  exact absurd hsame.dFractionOfAudioFileLeftToPlay (by decide +kernel)

theorem unchanged_owingHalf : owingHalf.Unchanged (owingHalf.bLoadStimuli second 0 0 0).2 ↔
    owingHalf.NothingToChange 0 0 0 :=
  StimuliLibrary.unchanged_iff second (by decide) (by decide)

end Orbiter.Stimuli
