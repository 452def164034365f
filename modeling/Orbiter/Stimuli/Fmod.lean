import Orbiter.Stimuli.Events
import Orbiter.Machine.Run

/-!
# FMOD behind the calls

The log of calls read as a run of FMOD.  Releasing a system invalidates whatever was
created from it; a channel started with a null group belongs to the master group; a
stop clock stays on its group until the system is released.

* `fmod`: the machine whose actions are the calls.
* `Live`: **every handle used was created by the system stored now**.
* `Leaks`: `playStimuli` starts a stimulus on a group that still has a stop clock.
* `Valid`: a library that holds and has used live handles only, kept by every method but
  the stop.
-/

namespace Orbiter.Stimuli

open Cxx Toolbox

/-- What FMOD knows: the system in use, the group of the channel started last and the
groups with a stop clock. -/
structure Fmod where
  system : Nat
  group : Option Handle
  stopClocks : List Handle

/-- A channel is moved or started, a stop clock is set, or a system ends or begins. -/
def Fmod.step (s : Fmod) : Call → Fmod
  | .systemCreate system => { s with system := system }
  | .systemRelease _ => { s with group := none, stopClocks := [] }
  | .playDSP system _ (some _) => { s with group := some ⟨system, 0⟩ }
  | .playSound system _ channelgroup (some _) =>
    { s with group := some (channelgroup.getD ⟨system, 0⟩) }
  | .setChannelGroup _ (some group) =>
    if s.group.isSome ∧ group.system = s.system then { s with group := some group } else s
  | .setDelay (some group) _ _ =>
    if group.system = s.system then { s with stopClocks := group :: s.stopClocks } else s
  | _ => s

def fmod : Machine Fmod Call where
  init := ⟨0, none, []⟩
  step := Fmod.step

/-- The low-pass filter, oscillator, channel group or sound that a method is called on or
that is passed to `fsystem`. -/
def Call.handles : Call → List Handle
  | .setParameterInt dsp _ => dsp.toList
  | .setParameterFloat dsp _ => dsp.toList
  | .setBypass dsp _ => dsp.toList
  | .playDSP _ dsp _ => dsp.toList
  | .getLength audio => (audio.map Sound.toHandle).toList
  | .soundSetMode audio _ => (audio.map Sound.toHandle).toList
  | .soundRelease audio => (audio.map Sound.toHandle).toList
  | .playSound _ audio channelgroup _ => (audio.map Sound.toHandle).toList ++ channelgroup.toList
  | .getDSPClock channelgroup => channelgroup.toList
  | .setDelay channelgroup _ _ => channelgroup.toList
  | _ => []

/-- The handles of a call were created by the system stored now. -/
def Live (s : Fmod) (c : Call) : Prop := ∀ h ∈ c.handles, h.system = s.system

instance (s : Fmod) (c : Call) : Decidable (Live s c) := by unfold Live; infer_instance

/-- `playStimuli` goes into its loop branch or its exact-length branch, and the group of
the channel has a stop clock. -/
def Leaks (s : Fmod) : Call → Prop
  | .playStimuli _ length desired _ =>
    length ≠ 0 ∧ length ≤ desired ∧ ∃ group, s.group = some group ∧ group ∈ s.stopClocks
  | _ => False

instance (s : Fmod) (c : Call) : Decidable (Leaks s c) := by
  cases c <;> unfold Leaks <;> infer_instance

def Call.creates : Call → Bool
  | .systemCreate _ => true
  | _ => false

theorem system_step {c : Call} (hc : c.creates = false) (s : Fmod) :
    (fmod.step s c).system = s.system := by
  show (s.step c).system = s.system
  rw [Fmod.step.eq_def]
  split <;> first | rfl | (split_ifs <;> rfl) | exact absurd hc (by simp [Call.creates])

theorem system_runFrom {cs : List Call} (hcs : ∀ c ∈ cs, c.creates = false) (s : Fmod) :
    (fmod.runFrom s cs).system = s.system := by
  induction cs generalizing s with
  | nil => rfl
  | cons c cs ih =>
    rw [Machine.runFrom_cons, ih (fun c' hc' => hcs c' (List.mem_cons_of_mem _ hc')),
      system_step (hcs c List.mem_cons_self)]

theorem alwaysFrom_live {cs : List Call} (hcs : ∀ c ∈ cs, c.creates = false) {s : Fmod}
    (h : ∀ c ∈ cs, ∀ h ∈ c.handles, h.system = s.system) : fmod.AlwaysFrom Live s cs := by
  induction cs generalizing s with
  | nil => exact Machine.alwaysFrom_nil s
  | cons c cs ih =>
    refine Machine.alwaysFrom_cons.mpr ⟨h c List.mem_cons_self, ?_⟩
    apply ih (fun c' hc' => hcs c' (List.mem_cons_of_mem _ hc'))
    rw [system_step (hcs c List.mem_cons_self)]
    exact fun c' hc' => h c' (List.mem_cons_of_mem _ hc')

namespace StimuliLibrary

variable (files : Files) (heap : Store HostData) (lib : StimuliLibrary)

def fmod : Fmod := Stimuli.fmod.run lib.calls

/-- The handles the library holds on to, but its channel. -/
def held : List Handle :=
  lib.dspLowpass.toList ++ lib.dspSin.toList ++ lib.channelgroup.toList ++
    (lib.audio.map Sound.toHandle).toList

/-- The library holds and has used live handles only. -/
structure Valid : Prop where
  system : lib.fmod.system = lib.fsystem
  held : ∀ h ∈ lib.held, h.system = lib.fsystem
  used : Stimuli.fmod.Always Live lib.calls

/-- The library went on within its system, with handles it held or new ones. -/
structure Goes (lib lib' : StimuliLibrary) (cs : List Call) : Prop where
  calls : lib'.calls = lib.calls ++ cs
  fsystem : lib'.fsystem = lib.fsystem
  earlyStop : lib'.earlyStop = lib.earlyStop
  dspLowpass : lib'.dspLowpass = lib.dspLowpass
  creates : ∀ c ∈ cs, c.creates = false
  holds : ∀ x ∈ lib'.held, x ∈ lib.held ∨ x.system = lib.fsystem
  uses : ∀ c ∈ cs, ∀ x ∈ c.handles, x ∈ lib.held ∨ x.system = lib.fsystem

variable {lib}

theorem Goes.trans {lib' lib'' : StimuliLibrary} {cs cs' : List Call} (h : lib.Goes lib' cs)
    (h' : lib'.Goes lib'' cs') : lib.Goes lib'' (cs ++ cs') where
  calls := by rw [h'.calls, h.calls, List.append_assoc]
  fsystem := h'.fsystem.trans h.fsystem
  earlyStop := h'.earlyStop.trans h.earlyStop
  dspLowpass := h'.dspLowpass.trans h.dspLowpass
  creates := by
    intro c hc
    rcases List.mem_append.mp hc with hc | hc
    · exact h.creates c hc
    · exact h'.creates c hc
  holds := by
    intro x hx
    rcases h'.holds x hx with hx | hx
    · exact h.holds x hx
    · exact Or.inr (hx.trans h.fsystem)
  uses := by
    intro c hc x hx
    rcases List.mem_append.mp hc with hc | hc
    · exact h.uses c hc x hx
    · rcases h'.uses c hc x hx with hx | hx
      · exact h.holds x hx
      · exact Or.inr (hx.trans h.fsystem)

theorem Goes.fmod_eq {lib' : StimuliLibrary} {cs : List Call} (h : lib.Goes lib' cs) :
    lib'.fmod = Stimuli.fmod.runFrom lib.fmod cs := by
  rw [fmod, h.calls, Machine.run_append]
  rfl

theorem Goes.system {lib' : StimuliLibrary} {cs : List Call} (h : lib.Goes lib' cs)
    (hs : lib.fmod.system = lib.fsystem) : lib'.fmod.system = lib'.fsystem := by
  rw [h.fmod_eq, system_runFrom h.creates, hs, h.fsystem]

/-- **What goes on within one system stays valid.** -/
theorem Valid.goes {lib' : StimuliLibrary} {cs : List Call} (h : lib.Valid)
    (hg : lib.Goes lib' cs) : lib'.Valid where
  system := hg.system h.system
  held := by
    intro x hx
    rw [hg.fsystem]
    exact (hg.holds x hx).elim (h.held x) id
  used := by
    rw [hg.calls]
    refine Machine.always_append.mpr ⟨h.used, alwaysFrom_live hg.creates ?_⟩
    intro c hc x hx
    rw [show (Stimuli.fmod.run lib.calls).system = lib.fsystem from h.system]
    exact (hg.uses c hc x hx).elim (h.held x) id

/-! ### The methods within one system -/

variable (lib)

theorem goes_refl : lib.Goes lib [] :=
  ⟨(List.append_nil _).symm, rfl, rfl, rfl, by simp, fun _ => Or.inl, by simp⟩

theorem goes_log (cs : List Call) (hcreates : ∀ c ∈ cs, c.creates = false)
    (huses : ∀ c ∈ cs, ∀ x ∈ c.handles, x ∈ lib.held ∨ x.system = lib.fsystem) :
    lib.Goes (lib.log cs) cs :=
  ⟨rfl, rfl, rfl, rfl, hcreates, fun _ => Or.inl, huses⟩

/-- Calls that use no handle and create no system. -/
theorem goes_quiet {cs : List Call} (h : ∀ c ∈ cs, c.creates = false ∧ c.handles = []) :
    lib.Goes (lib.log cs) cs := by
  refine lib.goes_log cs (fun c hc => (h c hc).1) ?_
  intro c hc x hx
  rw [(h c hc).2] at hx
  exact absurd hx List.not_mem_nil

theorem goes_updateFSystem : lib.Goes lib.updateFSystem [.systemUpdate lib.fsystem] :=
  lib.goes_quiet (by simp [Call.creates, Call.handles])

theorem goes_beginLoad (nr : Int) (volume : ℚ) (duration : Nat) :
    lib.Goes (lib.beginLoad nr volume duration)
      [.bLoadStimuli nr volume duration, .setBypass lib.dspLowpass true] :=
  ⟨rfl, rfl, rfl, rfl, by simp [Call.creates], fun _ => Or.inl, by
    simp only [List.mem_cons, List.not_mem_nil, or_false, forall_eq_or_imp, forall_eq]
    exact ⟨by simp [Call.handles], fun x hx => Or.inl (by simp_all [held, Call.handles])⟩⟩

theorem goes_playDSP :
    lib.Goes lib.playDSP [.playDSP lib.fsystem lib.dspSin lib.startedDSP] :=
  ⟨rfl, rfl, rfl, rfl, by simp [Call.creates], fun _ => Or.inl, by
    simp +contextual [Call.handles, held]⟩

theorem goes_startOscillator (nr : Int) : ∃ cs, lib.Goes (lib.startOscillator nr) cs := by
  rw [startOscillator]
  split_ifs
  · refine ⟨_, (lib.goes_log _ ?_ ?_).trans (goes_playDSP _)⟩
    · simp [Call.creates]
    · simp +contextual [Call.handles, held]
  · exact ⟨[], lib.goes_refl⟩

theorem goes_createSound (path : String) :
    lib.Goes ({ lib with pathToCurrentAudioFile := path }.createSound path)
      [.createSound ⟨⟨lib.fsystem, lib.nextId⟩, path⟩] :=
  ⟨rfl, rfl, rfl, rfl, by simp [Call.creates], by
    intro x hx
    simp only [held, createSound, List.mem_append, Option.map_some, Option.toList_some,
      List.mem_singleton] at hx ⊢
    rcases hx with hx | rfl
    · exact Or.inl (Or.inl hx)
    · exact Or.inr rfl, by simp [Call.handles]⟩

theorem goes_getLength : lib.Goes (lib.getLength files) [.getLength lib.audio] :=
  ⟨rfl, rfl, rfl, rfl, by simp [Call.creates], fun _ => Or.inl, by
    simp +contextual [Call.handles, held]⟩

theorem goes_playSound : lib.Goes lib.playSound
    [.playSound lib.fsystem lib.audio lib.channelgroup lib.startedSound] :=
  ⟨rfl, rfl, rfl, rfl, by simp [Call.creates], fun _ => Or.inl, by
    simp only [List.mem_singleton, forall_eq, Call.handles, held, List.mem_append]
    tauto⟩

theorem goes_getMasterChannelGroup :
    lib.Goes lib.getMasterChannelGroup [.getMasterChannelGroup lib.fsystem] :=
  ⟨rfl, rfl, rfl, rfl, by simp [Call.creates], by
    intro x hx
    simp only [held, getMasterChannelGroup, List.mem_append, Option.toList_some,
      List.mem_singleton] at hx ⊢
    rcases hx with (hx | rfl) | hx
    · exact Or.inl (Or.inl (Or.inl hx))
    · exact Or.inr rfl
    · exact Or.inl (Or.inr hx), by simp [Call.handles]⟩

theorem goes_loadAudio (path : String) : ∃ cs, lib.Goes (lib.loadAudio files path) cs := by
  refine ⟨_, (lib.goes_createSound path).trans ((goes_getLength files _).trans
    ((goes_quiet _ ?_).trans (goes_playSound _)))⟩
  simp [Call.creates, Call.handles]

theorem goes_switchStimulus (nr : Int) :
    ∃ cs, lib.Goes (lib.switchStimulus files nr).2 cs := by
  rw [switchStimulus]
  cases pathToAudio nr with
  | none => exact ⟨[], goes_refl _⟩
  | some path => exact goes_loadAudio files _ path

/-- **A load stays within its system.** -/
theorem goes_bLoadHostData (d : HostData) :
    ∃ cs, lib.Goes (lib.bLoadHostData files d).2 cs := by
  have hbegin := lib.goes_beginLoad d.stimulusNr d.loudness d.stimulusDuration
  obtain ⟨cs, hstart⟩ := goes_startOscillator
    (lib.beginLoad d.stimulusNr d.loudness d.stimulusDuration) d.stimulusNr
  obtain ⟨cs', hswitch⟩ := goes_switchStimulus files
    ((lib.beginLoad d.stimulusNr d.loudness d.stimulusDuration).startOscillator d.stimulusNr)
    d.stimulusNr
  refine ⟨_, ((hbegin.trans hstart).trans hswitch).trans (goes_quiet _ ?_)⟩
  simp [Call.creates, Call.handles]

theorem goes_playCut (clockDSP : Nat) : ∃ cs, lib.Goes (lib.playCut files clockDSP) cs := by
  have hlength : lib.Goes (lib.log [.getLength lib.audio]) [.getLength lib.audio] :=
    lib.goes_log _ (by simp [Call.creates]) (by simp +contextual [Call.handles, held])
  have hclock : ∀ lib : StimuliLibrary, lib.Goes
      (lib.log [.getDSPClock lib.channelgroup, .getDSPBufferSize lib.fsystem])
      [.getDSPClock lib.channelgroup, .getDSPBufferSize lib.fsystem] :=
    fun lib => lib.goes_log _ (by simp [Call.creates]) (by simp +contextual [Call.handles, held])
  have hstarted := (hlength.trans (goes_getMasterChannelGroup _)).trans
    ((hclock _).trans (goes_playSound _))
  refine ⟨_, hstarted.trans ⟨rfl, rfl, rfl, rfl, ?_, fun _ => Or.inl, ?_⟩⟩
  · simp [Call.creates]
  · simp +contextual [Call.handles, held]

theorem goes_playStimuli (h : lib.audioFileLengthMs ≠ 0) (clockDSP : Nat) :
    ∃ cs, lib.Goes (lib.playStimuli files clockDSP) cs := by
  have hsilent : ∀ lib : StimuliLibrary, lib.Goes (lib.log [.setPaused lib.channel false])
      [.setPaused lib.channel false] :=
    fun lib => lib.goes_quiet (by simp [Call.creates, Call.handles])
  have henter : lib.Goes (lib.log [.playStimuli lib.audio lib.audioFileLengthMs
      lib.uiDesiredDurationMs lib.dFractionOfAudioFileLeftToPlay]) _ :=
    lib.goes_quiet (by simp [Call.creates, Call.handles])
  have hcases : ∀ lib : StimuliLibrary, lib.audioFileLengthMs ≠ 0 →
      ∃ cs, lib.Goes (lib.playCases files clockDSP) cs := by
    intro lib h
    rw [playCases, if_neg h]
    split_ifs
    · exact ⟨_, rfl, rfl, rfl, rfl, by simp [Call.creates], fun _ => Or.inl,
        by simp [Call.handles]⟩
    · exact lib.goes_playCut files clockDSP
    · exact ⟨_, hsilent lib⟩
  obtain ⟨cs, hplayed⟩ := hcases (lib.log [.playStimuli lib.audio lib.audioFileLengthMs
    lib.uiDesiredDurationMs lib.dFractionOfAudioFileLeftToPlay]) h
  exact ⟨_, (henter.trans hplayed).trans (hsilent _)⟩

theorem goes_popFront (front : Ref) (rest : List Ref) :
    lib.Goes (lib.popFront front rest) [.vPlayStimulusIfToBeTriggered front] :=
  ⟨rfl, rfl, rfl, rfl, by simp [Call.creates], fun _ => Or.inl, by simp [Call.handles]⟩

theorem goes_takeFront (front : Ref) (rest : List Ref) :
    lib.Goes (lib.takeFront front rest) [.setHijackedProtocol front] :=
  ⟨rfl, rfl, rfl, rfl, by simp [Call.creates], fun _ => Or.inl, by simp [Call.handles]⟩

theorem goes_playInfinitely : ∃ cs, lib.Goes (lib.playInfinitely heap).2 cs := by
  rw [playInfinitely]
  split
  · split
    · exact ⟨_, lib.goes_quiet (by simp [Call.creates, Call.handles])⟩
    · exact ⟨[], lib.goes_refl⟩
  · exact ⟨[], lib.goes_refl⟩

theorem goes_look (r : Ref) : ∃ cs, lib.Goes (lib.look files heap r) cs := by
  obtain ⟨cs, h⟩ := goes_bLoadHostData files lib.updateFSystem (heap.deref r)
  exact ⟨_, lib.goes_updateFSystem.trans h⟩

theorem goes_taken (front : Ref) (rest : List Ref) :
    ∃ cs, lib.Goes (lib.taken files heap front rest) cs := by
  obtain ⟨cs, hlook⟩ := goes_look files heap lib front
  obtain ⟨cs', hload⟩ := goes_bLoadHostData files
    ((lib.look files heap front).takeFront front rest) (heap.deref front)
  exact ⟨_, (hlook.trans (goes_takeFront _ front rest)).trans hload⟩

theorem goes_loadedFront (front : Ref) (rest : List Ref) :
    ∃ cs, lib.Goes (lib.loadedFront files heap front rest) cs := by
  obtain ⟨cs, hlook⟩ := goes_look files heap lib front
  obtain ⟨cs', hload⟩ := goes_bLoadHostData files
    ((lib.look files heap front).popFront front rest) (heap.deref front)
  exact ⟨_, (hlook.trans (goes_popFront _ front rest)).trans hload⟩

/-! ### The stop -/

/-- The library went on and stopped, with nothing owed. -/
def Stops (lib lib' : StimuliLibrary) : Prop :=
  ∃ last cs tail, lib.Goes last cs ∧ last.dFractionOfAudioFileLeftToPlay = 0 ∧
    (∀ c ∈ tail, c.creates = false ∧ c.handles = []) ∧ lib' = last.stopStimuli.log tail

theorem Goes.stops {lib lib' lib'' : StimuliLibrary} {cs : List Call} (h : lib.Goes lib' cs)
    (h' : lib'.Stops lib'') : lib.Stops lib'' := by
  obtain ⟨last, cs', tail, hgoes, hrest⟩ := h'
  exact ⟨last, cs ++ cs', tail, h.trans hgoes, hrest⟩

structure Stopped (lib lib' : StimuliLibrary) : Prop where
  system : lib.fmod.system = lib.fsystem → lib'.fmod.system = lib'.fsystem
  fsystem : lib'.fsystem = lib.fsystem + 1
  earlyStop : lib'.earlyStop = true
  dspLowpass : lib'.dspLowpass = lib.dspLowpass
  fraction : lib'.dFractionOfAudioFileLeftToPlay = 0

theorem stops_stopStimuli (h : lib.dFractionOfAudioFileLeftToPlay = 0) :
    lib.Stops lib.stopStimuli := by
  refine ⟨lib, [], [], lib.goes_refl, h, by simp, ?_⟩
  rw [log, List.append_nil]

theorem fmod_stopStimuli : lib.stopStimuli.fmod = ⟨lib.fsystem + 1, none, []⟩ := by
  rw [fmod, show lib.stopStimuli.calls = lib.calls ++ _ from rfl, Machine.run_append]
  rfl

variable {lib}

theorem Stops.stopped {lib' : StimuliLibrary} (h : lib.Stops lib') : Stopped lib lib' := by
  obtain ⟨last, cs, tail, hgoes, hf, htail, rfl⟩ := h
  refine ⟨fun _ => ?_, congrArg (· + 1) hgoes.fsystem, rfl, hgoes.dspLowpass, hf⟩
  rw [fmod, show (last.stopStimuli.log tail).calls = last.stopStimuli.calls ++ tail from rfl,
    Machine.run_append, system_runFrom (fun c hc => (htail c hc).1)]
  exact congrArg Fmod.system last.fmod_stopStimuli

theorem Valid.stopStimuli (h : lib.Valid) : Stimuli.fmod.Always Live lib.stopStimuli.calls := by
  have hcalls : lib.stopStimuli.calls = lib.calls ++ [.stopStimuli, .soundSetMode lib.audio .off,
      .setMode lib.channel .off, .setPaused lib.channel true, .stop lib.channel,
      .soundRelease lib.audio, .systemRelease lib.fsystem] ++
        [.systemCreate (lib.fsystem + 1)] := by
    rw [List.append_assoc]
    rfl
  have haudio : ∀ x ∈ (lib.audio.map Sound.toHandle).toList, x.system = lib.fmod.system := by
    intro x hx
    rw [h.system]
    exact h.held x (List.mem_append_right _ hx)
  rw [hcalls, Machine.always_append, Machine.always_append]
  refine ⟨⟨h.used, alwaysFrom_live (by simp [Call.creates]) ?_⟩, ?_⟩
  · simp only [List.mem_cons, List.not_mem_nil, or_false, forall_eq_or_imp, forall_eq]
    simp only [Call.handles, List.not_mem_nil, IsEmpty.forall_iff, implies_true, true_and, and_true]
    exact ⟨haudio, haudio⟩
  · exact Machine.alwaysFrom_cons.mpr ⟨by simp [Live, Call.handles], Machine.alwaysFrom_nil _⟩

/-- **A valid library stops without a stale handle.** -/
theorem Valid.stops {lib' : StimuliLibrary} (h : lib.Valid) (hs : lib.Stops lib') :
    Stimuli.fmod.Always Live lib'.calls := by
  obtain ⟨last, cs, tail, hgoes, -, htail, rfl⟩ := hs
  have hlast := h.goes hgoes
  have hstop := hlast.stopStimuli
  refine Machine.always_append.mpr ⟨hstop, alwaysFrom_live (fun c hc => (htail c hc).1) ?_⟩
  intro c hc x hx
  rw [(htail c hc).2] at hx
  exact absurd hx (by simp)

/-! ### The six ways -/

/-- The library goes on within its system, or stops. -/
def Moves (lib lib' : StimuliLibrary) : Prop := (∃ cs, lib.Goes lib' cs) ∨ lib.Stops lib'

theorem Goes.moves {lib lib' lib'' : StimuliLibrary} {cs : List Call} (h : lib.Goes lib' cs)
    (h' : lib'.Moves lib'') : lib.Moves lib'' := by
  rcases h' with ⟨cs', h'⟩ | h'
  · exact Or.inl ⟨_, h.trans h'⟩
  · exact Or.inr (h.stops h')

variable (lib)

theorem moves_continueHijackedProtocol (hf : lib.dFractionOfAudioFileLeftToPlay = 0)
    (movementQueue : List Ref) (answers : Answers) :
    lib.Moves (lib.continueHijackedProtocol heap movementQueue answers).2 := by
  have hasked : ∀ (lib : StimuliLibrary) (answer : Bool),
      lib.Goes (lib.log [.reachedTarget answer]) [.reachedTarget answer] :=
    fun lib answer => lib.goes_quiet (by simp [Call.creates, Call.handles])
  rw [continueHijackedProtocol]
  split_ifs with hqueue hpending hfinished
  · exact Or.inl (goes_playInfinitely heap lib)
  · exact (hasked lib _).moves (Or.inl (goes_playInfinitely heap _))
  · have hclear : ∀ lib : StimuliLibrary,
        lib.Goes lib.vSetHijackedProtocolIsCompletelyProcessed
          [.vSetHijackedProtocolIsCompletelyProcessed] := fun lib =>
      ⟨rfl, rfl, rfl, rfl, by simp [Call.creates], fun _ => Or.inl, by simp [Call.handles]⟩
    have hgoes := ((hasked lib answers.pendingReached).trans
      (hasked _ answers.finishedReached)).trans (hclear _)
    exact Or.inr (hgoes.stops (stops_stopStimuli _ hf))
  · exact (hasked lib _).moves (Or.inl ⟨_, hasked _ _⟩)

theorem moves_playStimuli (hf : lib.dFractionOfAudioFileLeftToPlay = 0) (clockDSP : Nat) :
    lib.Moves (lib.playStimuli files clockDSP) := by
  by_cases h : lib.audioFileLengthMs = 0
  · have henter : lib.Goes (lib.log [.playStimuli lib.audio lib.audioFileLengthMs
        lib.uiDesiredDurationMs lib.dFractionOfAudioFileLeftToPlay]) _ :=
      lib.goes_quiet (by simp [Call.creates, Call.handles])
    refine Or.inr ⟨_, _, [.setPaused lib.channel false], henter, hf, ?_, ?_⟩
    · simp [Call.creates, Call.handles]
    · rw [playStimuli, playCases, if_pos (show (lib.log _).audioFileLengthMs = 0 from h)]
      rfl
  · exact Or.inl (lib.goes_playStimuli files h clockDSP)

variable {files heap lib}

/-- **Each way goes on within the system or stops it.** -/
theorem StimuliStep.moves {movementQueue : List Ref} {answers : Answers} {cs : List Call}
    {out : Store HostData × StimuliLibrary} (howes : lib.playback.Owes)
    (h : lib.StimuliStep files heap movementQueue answers cs out) : lib.Moves out.2 := by
  cases h with
  | hijacked r =>
    obtain ⟨cs, hlook⟩ := goes_look files heap lib r
    refine hlook.moves (moves_continueHijackedProtocol heap _ ?_ movementQueue answers)
    exact congrArg Playback.fraction (lib.look_playback files heap r)
  | take front rest =>
    obtain ⟨cs, htaken⟩ := goes_taken files heap lib front rest
    refine htaken.moves (moves_continueHijackedProtocol heap _ ?_ movementQueue answers)
    exact congrArg Playback.fraction (lib.taken_playback files heap front rest)
  | remainder free queue owed =>
    have hlength : lib.audioFileLengthMs ≠ 0 :=
      Nat.ne_zero_of_lt (howes.lt_length (fraction_ne_zero owed))
    obtain ⟨cs, hplay⟩ := goes_playStimuli files lib.updateFSystem hlength answers.clockDSP
    exact Or.inl ⟨_, lib.goes_updateFSystem.trans hplay⟩
  | idle => exact Or.inl ⟨_, lib.goes_updateFSystem⟩
  | play front rest =>
    obtain ⟨cs, hloaded⟩ := goes_loadedFront files heap lib front rest
    refine hloaded.moves (moves_playStimuli files _ ?_ answers.clockDSP)
    exact loadedFront_dFractionOfAudioFileLeftToPlay files heap lib front rest
  | pop front rest =>
    obtain ⟨cs, hlook⟩ := goes_look files heap lib front
    exact Or.inl ⟨_, hlook.trans (goes_popFront _ front rest)⟩

/-! ### A load behind a stop -/

/-- A load uses the low-pass filter, whoever made it. -/
theorem not_live_beginLoad {h : Handle} (hs : lib.fmod.system = lib.fsystem)
    (hlowpass : lib.dspLowpass = some h) (hstale : h.system ≠ lib.fsystem) (nr : Int) (volume : ℚ)
    (duration : Nat) : ¬ Stimuli.fmod.Always Live (lib.beginLoad nr volume duration).calls := by
  intro hlive
  have hlast := (Machine.always_append.mp hlive).2
  simp only [Machine.alwaysFrom_cons] at hlast
  apply hstale
  rw [← hs]
  exact hlast.2.1 h (by simp [hlowpass, Call.handles])

theorem prefix_processStimuli_look {r : Ref} (h : lib.playback.candidate = some r)
    (movementQueue : List Ref) (answers : Answers) :
    (lib.look files heap r).calls <+:
      (lib.processStimuli files heap movementQueue answers).2.calls := by
  refine List.IsPrefix.trans ?_ (prefix_processStimuli files heap lib movementQueue answers)
  rw [bIsStimulusToPlayAsLongAsMovementsPending, updateFSystem_hostDataOfHijackedProtocol,
    updateFSystem_stimuliQueue]
  cases hj : lib.hostDataOfHijackedProtocol with
  | some r' =>
    have hr : lib.playback.candidate = some r' := by
      rw [Playback.candidate, show lib.playback.hijacked = some r' from hj, Option.some_or]
    obtain rfl := Option.some.inj (hr.symm.trans h)
    simp only
    split
    · exact List.prefix_rfl
    · exact prefix_log _ _
  | none =>
    rw [Playback.candidate, show lib.playback.hijacked = none from hj, Option.none_or] at h
    cases hq : lib.stimuliQueue with
    | nil =>
      rw [show lib.playback.queue = [] from hq] at h
      exact absurd h (by simp)
    | cons front rest =>
      rw [show lib.playback.queue = front :: rest from hq] at h
      obtain rfl := Option.some.inj h
      exact List.prefix_rfl

theorem not_live_processStimuli {h : Handle} {r : Ref} (hs : lib.fmod.system = lib.fsystem)
    (hlowpass : lib.dspLowpass = some h) (hstale : h.system ≠ lib.fsystem)
    (hr : lib.playback.candidate = some r) (movementQueue : List Ref) (answers : Answers) :
    ¬ Stimuli.fmod.Always Live (lib.processStimuli files heap movementQueue answers).2.calls := by
  intro hlive
  have hupdate := lib.goes_updateFSystem
  have hload := (prefix_beginLoad files lib.updateFSystem (heap.deref r).stimulusNr
    (heap.deref r).loudness (heap.deref r).stimulusDuration).trans
    (prefix_processStimuli_look hr movementQueue answers)
  exact not_live_beginLoad (hupdate.system hs) hlowpass hstale _ _ _ (hlive.of_prefix hload)

variable (lib)

/-- The handles of a library, which is valid until it has been stopped.  From then on
its low-pass filter is stale. -/
structure Aged : Prop where
  system : lib.fmod.system = lib.fsystem
  valid : lib.earlyStop = false → lib.Valid
  lowpass : ∃ h, lib.dspLowpass = some h ∧ h.system ≤ lib.fsystem ∧
    (lib.earlyStop = true → h.system ≠ lib.fsystem)

variable {lib}

theorem Aged.moves {lib' : StimuliLibrary} (h : lib.Aged) (hm : lib.Moves lib') : lib'.Aged := by
  obtain ⟨x, hx, hle, hstale⟩ := h.lowpass
  rcases hm with ⟨cs, hgoes⟩ | hstops
  · refine ⟨hgoes.system h.system, ?_, x, hgoes.dspLowpass.trans hx, ?_, ?_⟩
    · intro hearly
      exact (h.valid (hgoes.earlyStop.symm.trans hearly)).goes hgoes
    · rwa [hgoes.fsystem]
    · intro hearly
      rw [hgoes.fsystem]
      exact hstale (hgoes.earlyStop.symm.trans hearly)
  · have hstopped := hstops.stopped
    refine ⟨hstopped.system h.system, ?_, x, hstopped.dspLowpass.trans hx, ?_, ?_⟩
    · intro hearly
      exact absurd (hstopped.earlyStop.symm.trans hearly) (by simp)
    · rw [hstopped.fsystem]
      exact Nat.le_succ_of_le hle
    · intro _
      rw [hstopped.fsystem]
      exact Nat.ne_of_lt (Nat.lt_succ_of_le hle)

/-- **Until it has been stopped, the library uses live handles only.** -/
theorem Aged.used {lib' : StimuliLibrary} (h : lib.Aged) (hearly : lib.earlyStop = false)
    (hm : lib.Moves lib') : Stimuli.fmod.Always Live lib'.calls := by
  have hvalid := h.valid hearly
  rcases hm with ⟨cs, hgoes⟩ | hstops
  · exact (hvalid.goes hgoes).used
  · exact hvalid.stops hstops

theorem aged_init : init.Aged := by
  refine ⟨rfl, fun _ => ⟨rfl, ?_, ?_⟩, ⟨1, 3⟩, rfl, le_refl 1, nofun⟩
  · simp [held, init, zeroed]
  · simp [Machine.Always, init, Live, Call.handles, Stimuli.fmod, Fmod.step]

end StimuliLibrary

end Orbiter.Stimuli
