import Orbiter.Cxx.Rounding
import Orbiter.Cxx.Store

/-!
# `StimuliLibrary`: loading and playing a sound

The members of `StimuliLibrary`, and its methods as `StimuliLibrary.cpp` has
them.  Every method and every FMOD call is appended to `calls`.  Of FMOD the
library uses what its out-parameters return: `Files` gives the lengths of the
sound files, a handle remembers the system that made it, and a call that is given
a handle of a released system leaves its out-parameter alone.

* `bLoadStimuli`: look up the stimulus, load its file and start it paused.
* `playStimuli`: loop it, cut it or let it run, and keep what is still owed.
* `stopStimuli`: stop everything by starting over with a new system.
-/

namespace Orbiter.Stimuli

open Cxx

/-- A channel, channel group or DSP: the system that made it and its number there. -/
structure Handle where
  system : Nat
  id : Nat
  deriving DecidableEq

/-- An `FMOD::Sound`, with the file it was created from. -/
structure Sound extends Handle where
  path : String
  deriving DecidableEq

inductive LoopMode
  | off
  | normal
  deriving DecidableEq

inductive DspType
  | oscillator
  | lowpass
  deriving DecidableEq

/-- What the library does: entering one of its methods, and calling FMOD or the
motor.  A null pointer is `none`. -/
inductive Call
  | bLoadStimuli (nr : Int) (volume : ℚ) (duration : Nat)
  | playStimuli (audio : Option Sound) (audioFileLengthMs uiDesiredDurationMs : Nat)
      (dFractionOfAudioFileLeftToPlay : ℚ)
  | stopStimuli
  | vPlayStimulusIfToBeTriggered (front : Ref)
  | setHijackedProtocol (front : Ref)
  | playInfinitely (hijacked : Ref)
  | vSetHijackedProtocolIsCompletelyProcessed
  | missingReturn
  | reachedTarget (answer : Bool)
  | systemCreate (system : Nat)
  | systemRelease (system : Nat)
  | systemUpdate (system : Nat)
  | createDSPByType (system : Nat) (type : DspType) (dsp : Handle)
  | setParameterInt (dsp : Option Handle) (value : Int)
  | setParameterFloat (dsp : Option Handle) (value : ℚ)
  | addDSP (channel dsp : Option Handle)
  | setBypass (dsp : Option Handle) (bypass : Bool)
  | playDSP (system : Nat) (dsp channel : Option Handle)
  | createSound (sound : Sound)
  | getLength (audio : Option Sound)
  | soundSetMode (audio : Option Sound) (mode : LoopMode)
  | soundRelease (audio : Option Sound)
  | playSound (system : Nat) (audio : Option Sound) (channelgroup channel : Option Handle)
  | setChannelGroup (channel channelgroup : Option Handle)
  | setVolume (channel : Option Handle) (volume : ℚ)
  | setMode (channel : Option Handle) (mode : LoopMode)
  | setLoopCount (channel : Option Handle) (count : Int)
  | setPaused (channel : Option Handle) (paused : Bool)
  | stop (channel : Option Handle)
  | getMasterChannelGroup (system : Nat)
  | getDSPClock (channelgroup : Option Handle)
  | getDSPBufferSize (system : Nat)
  | setDelay (channelgroup : Option Handle) (start finish : Nat)
  deriving DecidableEq

def Call.isLoad : Call → Bool
  | .bLoadStimuli _ _ _ => true
  | _ => false

/-- The lengths of the sound files, in milliseconds and in samples, and the arithmetic
they are divided in. -/
structure Files where
  length : String → Nat
  samples : String → Nat
  double : Rounding

structure StimuliLibrary where
  pathToCurrentAudioFile : String
  audioFileLengthMs : Nat
  uiDesiredDurationMs : Nat
  dFractionOfAudioFileLeftToPlay : ℚ
  /-- The number of the system `fsystem` points to. -/
  fsystem : Nat
  channel : Option Handle
  channelgroup : Option Handle
  audio : Option Sound
  dspSin : Option Handle
  dspNoise : Option Handle
  dspLowpass : Option Handle
  earlyStop : Bool
  stimuliQueue : List Ref
  hostDataOfHijackedProtocol : Option Ref
  /-- The number FMOD gives to the next object. -/
  nextId : Nat
  calls : List Call

def pathToAudio01Chirp : String := "../../../../TestFiles/01_chirp.flac"
def pathToAudio02PinkNoise : String := "../../../../TestFiles/02_pink192k.flac"
def pathToAudio03Sin500 : String := "../../../../TestFiles/03_sin500.flac"

def pathToAudio (nr : Int) : Option String :=
  if nr = 1 then some pathToAudio01Chirp
  else if nr = 2 then some pathToAudio02PinkNoise
  else if nr = 3 then some pathToAudio03Sin500
  else none

def pitches : List ℚ :=
  [1, 1.0594630943592953, 1.122462048309373, 1.189207115002721, 1.2599210498948732,
    1.3348398541700344, 1.4142135623730951, 1.4983070768766815, 1.5874010519681994,
    1.681792830507429, 1.7817974362806785, 1.8877486253633868]

def aFreqs : List ℚ := [22.5, 55, 110, 220, 440, 880, 1760, 3520, 7040]

/-- `MusicScale::getPitch` of a note number.  Note 60 of octave 4 lies behind the
table; the source reads the memory there, the model 0. -/
def getPitch (octave note : Nat) : ℚ :=
  if note < 12 then pitches.getD note 0 * aFreqs.getD octave 0
  else pitches.getD (note % 12) 0 * aFreqs.getD (octave + note / 12) 0

namespace StimuliLibrary

variable (files : Files) (lib : StimuliLibrary)

/-! ### Calls to FMOD -/

def log (cs : List Call) : StimuliLibrary := { lib with calls := lib.calls ++ cs }

/-- The handle was made by the system stored now. -/
def live (h : Handle) : Bool := h.system == lib.fsystem

def createSound (path : String) : StimuliLibrary :=
  let sound : Sound := ⟨⟨lib.fsystem, lib.nextId⟩, path⟩
  { lib with
    audio := some sound
    nextId := lib.nextId + 1
    calls := lib.calls ++ [.createSound sound] }

/-- `audio->getLength(&audioFileLength_ms, FMOD_TIMEUNIT_MS)`. -/
def getLength : StimuliLibrary :=
  { lib with
    audioFileLengthMs :=
      match lib.audio with
      | some sound =>
        if lib.live sound.toHandle then files.length sound.path else lib.audioFileLengthMs
      | none => lib.audioFileLengthMs
    calls := lib.calls ++ [.getLength lib.audio] }

/-- The channel `playSound` starts, in the group or in the master group. -/
def startedSound : Option Handle :=
  if lib.audio.any (fun sound => lib.live sound.toHandle) && lib.channelgroup.all lib.live then
    some ⟨lib.fsystem, lib.nextId⟩
  else none

/-- `fsystem->playSound(audio, channelgroup, true, &channel)`. -/
def playSound : StimuliLibrary :=
  { lib with
    channel := lib.startedSound.or lib.channel
    nextId := lib.nextId + 1
    calls := lib.calls ++ [.playSound lib.fsystem lib.audio lib.channelgroup lib.startedSound] }

def startedDSP : Option Handle :=
  if lib.dspSin.any lib.live then some ⟨lib.fsystem, lib.nextId⟩ else none

/-- `fsystem->playDSP(dsp_sin, 0, true, &channel)`. -/
def playDSP : StimuliLibrary :=
  { lib with
    channel := lib.startedDSP.or lib.channel
    nextId := lib.nextId + 1
    calls := lib.calls ++ [.playDSP lib.fsystem lib.dspSin lib.startedDSP] }

/-- The master group is object 0 of its system. -/
def getMasterChannelGroup : StimuliLibrary :=
  { lib with
    channelgroup := some ⟨lib.fsystem, 0⟩
    calls := lib.calls ++ [.getMasterChannelGroup lib.fsystem] }

/-! ### The methods -/

def bGetIsThereAFractionLeftToPlay : Bool := 0.0001 < lib.dFractionOfAudioFileLeftToPlay

def updateFSystem : StimuliLibrary := lib.log [.systemUpdate lib.fsystem]

/-- The stop, which ends with a new system. -/
def stopStimuli : StimuliLibrary :=
  { lib with
    earlyStop := true
    fsystem := lib.fsystem + 1
    nextId := 1
    calls := lib.calls ++ [.stopStimuli, .soundSetMode lib.audio .off, .setMode lib.channel .off,
      .setPaused lib.channel true, .stop lib.channel, .soundRelease lib.audio,
      .systemRelease lib.fsystem, .systemCreate (lib.fsystem + 1)] }

def startOscillator (nr : Int) : StimuliLibrary :=
  if 2 ≤ nr ∧ nr ≤ 60 then
    (lib.log [.setParameterFloat lib.dspSin (getPitch 4 nr.toNat)]).playDSP
  else lib

/-- One case of the `switch`: the same five lines for each of the three files. -/
def loadAudio (path : String) : StimuliLibrary :=
  let lib := ({ lib with pathToCurrentAudioFile := path }.createSound path).getLength files
  (lib.log [.setChannelGroup lib.channel lib.channelgroup]).playSound

/-- The `switch`, and whether it knows the number. -/
def switchStimulus (nr : Int) : Bool × StimuliLibrary :=
  match pathToAudio nr with
  | some path => (true, lib.loadAudio files path)
  | none => (false, lib)

/-- What a load sets before it looks at the number. -/
def beginLoad (nr : Int) (volume : ℚ) (duration : Nat) : StimuliLibrary :=
  { lib with
    uiDesiredDurationMs := duration
    dFractionOfAudioFileLeftToPlay := 0
    calls := lib.calls ++ [.bLoadStimuli nr volume duration, .setBypass lib.dspLowpass true] }

def bLoadStimuli (nr : Int) (volume : ℚ) (duration : Nat) : Bool × StimuliLibrary :=
  let (bRetIsValidStimuli, lib) :=
    ((lib.beginLoad nr volume duration).startOscillator nr).switchStimulus files nr
  (bRetIsValidStimuli, lib.log [.setVolume lib.channel volume])

/-- Case 1 of `playStimuli`: the sound is shorter than desired. -/
def playLooped : StimuliLibrary :=
  let isLongerFactor : ℚ := files.double.round (lib.uiDesiredDurationMs / lib.audioFileLengthMs)
  let intMultiple : Nat := (truncate isLongerFactor).toNat
  let isLongerFraction : ℚ := files.double.round (isLongerFactor - intMultiple)
  { lib with
    dFractionOfAudioFileLeftToPlay := isLongerFraction
    uiDesiredDurationMs :=
      (truncate (files.double.round (isLongerFraction * lib.audioFileLengthMs))).toNat
    calls := lib.calls ++ [.setLoopCount lib.channel (intMultiple - 1),
      .setMode lib.channel .normal, .setPaused lib.channel false] }

/-- How many samples case 2 of `playStimuli` plays.  There is a sound whenever a
length has been read. -/
def iSampleLengthOfAudio : Int :=
  let audioFileLengthSamples : Nat := lib.audio.elim 0 fun sound => files.samples sound.path
  let dMsLengthOfOneSample : ℚ :=
    files.double.round (audioFileLengthSamples / lib.audioFileLengthMs)
  let dSampleLengthOfDesiredMsLength : ℚ :=
    files.double.round (dMsLengthOfOneSample * lib.uiDesiredDurationMs)
  truncate dSampleLengthOfDesiredMsLength

/-- Case 2 of `playStimuli`: the sound is longer than desired.  `clockDSP` is what
`getDSPClock` returns. -/
def playCut (clockDSP : Nat) : StimuliLibrary :=
  let finish : Nat := toUnsigned 64 (clockDSP + lib.iSampleLengthOfAudio files)
  let lib := (lib.log [.getLength lib.audio]).getMasterChannelGroup
  let lib := (lib.log [.getDSPClock lib.channelgroup, .getDSPBufferSize lib.fsystem]).playSound
  { lib with
    dFractionOfAudioFileLeftToPlay := 0
    calls := lib.calls ++
      [.setDelay lib.channelgroup clockDSP finish, .setPaused lib.channel false] }

/-- The three cases of `playStimuli`, and the file without a length. -/
def playCases (clockDSP : Nat) : StimuliLibrary :=
  if lib.audioFileLengthMs = 0 then lib.stopStimuli
  else if lib.audioFileLengthMs < lib.uiDesiredDurationMs then lib.playLooped files
  else if lib.uiDesiredDurationMs < lib.audioFileLengthMs then lib.playCut files clockDSP
  else lib.log [.setPaused lib.channel false]

def playStimuli (clockDSP : Nat) : StimuliLibrary :=
  let lib := (lib.log [.playStimuli lib.audio lib.audioFileLengthMs lib.uiDesiredDurationMs
    lib.dFractionOfAudioFileLeftToPlay]).playCases files clockDSP
  lib.log [.setPaused lib.channel false]

/-- The zeroed global before its constructor runs. -/
def zeroed : StimuliLibrary where
  pathToCurrentAudioFile := ""
  audioFileLengthMs := 0
  uiDesiredDurationMs := 0
  dFractionOfAudioFileLeftToPlay := 0
  fsystem := 0
  channel := none
  channelgroup := none
  audio := none
  dspSin := none
  dspNoise := none
  dspLowpass := none
  earlyStop := false
  stimuliQueue := []
  hostDataOfHijackedProtocol := none
  nextId := 1
  calls := []

/-- The constructor: the first system, and `initAllStimuli` with its three DSPs. -/
def init : StimuliLibrary :=
  let sin : Handle := ⟨1, 1⟩
  let noise : Handle := ⟨1, 2⟩
  let lowpass : Handle := ⟨1, 3⟩
  { zeroed with
    fsystem := 1
    dspSin := sin
    dspNoise := noise
    dspLowpass := lowpass
    nextId := 4
    calls := [.systemCreate 1, .createDSPByType 1 .oscillator sin,
      .createDSPByType 1 .oscillator noise, .createDSPByType 1 .lowpass lowpass,
      .setParameterInt sin 0, .setParameterInt noise 5, .addDSP none lowpass,
      .setBypass lowpass true] }

/-! ### The log only grows -/

theorem prefix_log (cs : List Call) : lib.calls <+: (lib.log cs).calls := List.prefix_append _ _

theorem prefix_startOscillator (nr : Int) : lib.calls <+: (lib.startOscillator nr).calls := by
  rw [startOscillator]
  split
  · exact (lib.prefix_log _).trans (List.prefix_append _ _)
  · exact List.prefix_rfl

theorem prefix_switchStimulus (nr : Int) :
    lib.calls <+: (lib.switchStimulus files nr).2.calls := by
  rw [switchStimulus]
  cases pathToAudio nr with
  | none => exact List.prefix_rfl
  | some path =>
    refine List.IsPrefix.trans ?_ (List.prefix_append _ _)
    refine List.IsPrefix.trans ?_ (prefix_log _ _)
    exact (List.prefix_append _ _).trans (List.prefix_append _ _)

theorem prefix_beginLoad (nr : Int) (volume : ℚ) (duration : Nat) :
    (lib.beginLoad nr volume duration).calls <+:
      (lib.bLoadStimuli files nr volume duration).2.calls := by
  refine List.IsPrefix.trans ?_ (prefix_log _ _)
  refine List.IsPrefix.trans ?_ (prefix_switchStimulus files _ nr)
  exact prefix_startOscillator _ nr

theorem prefix_bLoadStimuli (nr : Int) (volume : ℚ) (duration : Nat) :
    lib.calls ++ [.bLoadStimuli nr volume duration] <+:
      (lib.bLoadStimuli files nr volume duration).2.calls := by
  refine List.IsPrefix.trans ?_ (prefix_beginLoad files lib nr volume duration)
  exact ⟨[.setBypass lib.dspLowpass true], by rw [List.append_assoc]; rfl⟩

theorem prefix_playCases (clockDSP : Nat) :
    lib.calls <+: (lib.playCases files clockDSP).calls := by
  rw [playCases]
  split
  · exact List.prefix_append _ _
  · split
    · exact List.prefix_append _ _
    · split
      · refine List.IsPrefix.trans ?_ (List.prefix_append _ _)
        refine List.IsPrefix.trans ?_ (List.prefix_append _ _)
        refine List.IsPrefix.trans ?_ (prefix_log _ _)
        exact (lib.prefix_log _).trans (List.prefix_append _ _)
      · exact lib.prefix_log _

theorem prefix_playStimuli (clockDSP : Nat) :
    lib.calls ++ [.playStimuli lib.audio lib.audioFileLengthMs lib.uiDesiredDurationMs
        lib.dFractionOfAudioFileLeftToPlay] <+: (lib.playStimuli files clockDSP).calls :=
  (prefix_playCases files (lib.log [.playStimuli lib.audio lib.audioFileLengthMs
    lib.uiDesiredDurationMs lib.dFractionOfAudioFileLeftToPlay]) clockDSP).trans (prefix_log _ _)

end StimuliLibrary

end Orbiter.Stimuli
