import Orbiter.Stimuli.Fmod

/-!
# Stop clocks

Case 2 of `playStimuli` sets its stop clock on the master group, and keeps that group in
`channelgroup`.  Every later sound of the same system is started in it.

* `Clocks`: no group has a stop clock, or the master group has one and is the one in
  `channelgroup`, or `channelgroup` is stale and nothing can be started.
* `Clocked`: a library in one of these states, kept by every method.
* `StimuliStep.noLeak_iff_not_inherits`: **which way of a tick leaks a stop clock**.
-/

namespace Orbiter.Stimuli

open Cxx Toolbox

def master (system : Nat) : Handle := ⟨system, 0⟩

/-- The groups with a stop clock, next to the group of the channel and the one in
`channelgroup`. -/
inductive Clocks (fsystem : Nat) (channelgroup : Option Handle) (s : Fmod) : Prop
  | unset (channelgroup : channelgroup = none) (stopClocks : s.stopClocks = [])
      (group : ∀ x, s.group = some x → x = master fsystem)
  | set (channelgroup : channelgroup = some (master fsystem))
      (stopClocks : master fsystem ∈ s.stopClocks)
      (group : ∀ x, s.group = some x → x = master fsystem)
  | stale (h : Handle) (channelgroup : channelgroup = some h) (released : h.system < fsystem)
      (stopClocks : s.stopClocks = []) (group : s.group = none)

def Call.isPlay : Call → Bool
  | .playStimuli _ _ _ _ => true
  | _ => false

theorem Call.isMethod_of_isPlay {c : Call} (h : c.isPlay = true) : c.isMethod = true := by
  cases c <;> first | rfl | exact absurd h Bool.false_ne_true

def NoLeak (s : Fmod) (c : Call) : Prop := ¬ Leaks s c

instance (s : Fmod) (c : Call) : Decidable (NoLeak s c) := by unfold NoLeak; infer_instance

theorem noLeak_of_not_isPlay {c : Call} (h : c.isPlay = false) (s : Fmod) : NoLeak s c := by
  cases c <;> first | exact id | exact absurd h (by simp [Call.isPlay])

namespace StimuliLibrary

variable (files : Files) (heap : Store HostData) (lib : StimuliLibrary)

/-- A library whose stop clocks are in one of the three states. -/
structure Clocked : Prop where
  system : lib.fmod.system = lib.fsystem
  dspSin : ∃ h, lib.dspSin = some h ∧ h.system ≤ lib.fsystem ∧
    (∀ x, lib.channelgroup = some x → x.system < lib.fsystem → h.system < lib.fsystem)
  clocks : Clocks lib.fsystem lib.channelgroup lib.fmod

/-! ### What FMOD knows behind each method -/

theorem fmod_log (cs : List Call) :
    (lib.log cs).fmod = Stimuli.fmod.runFrom lib.fmod cs := Machine.run_append _ _ _

theorem fmod_playDSP : lib.playDSP.fmod =
    lib.fmod.step (.playDSP lib.fsystem lib.dspSin lib.startedDSP) := Machine.run_append _ _ _

theorem fmod_playSound : lib.playSound.fmod = lib.fmod.step
    (.playSound lib.fsystem lib.audio lib.channelgroup lib.startedSound) :=
  Machine.run_append _ _ _

theorem fmod_beginLoad (nr : Int) (volume : ℚ) (duration : Nat) :
    (lib.beginLoad nr volume duration).fmod = lib.fmod := Machine.run_append _ _ _

/-- Case 2 of `playStimuli` starts the sound in the master group and stops that. -/
theorem fmod_playCut (clockDSP : Nat) : (lib.playCut files clockDSP).fmod =
    (lib.fmod.step (.playSound lib.fsystem lib.audio (some (master lib.fsystem))
      lib.getMasterChannelGroup.startedSound)).step (.setDelay (some (master lib.fsystem)) clockDSP
        (toUnsigned 64 (clockDSP + lib.iSampleLengthOfAudio files))) := by
  rw [fmod]
  simp only [playCut, playSound, getMasterChannelGroup, log, List.append_assoc]
  exact Machine.run_append _ _ _

/-- The sound is created and measured, and the channel moved to the group. -/
theorem fmod_opened (path : String) :
    (({ lib with pathToCurrentAudioFile := path }.createSound path).getLength files).fmod =
      lib.fmod := by
  rw [fmod, getLength, createSound, List.append_assoc, Machine.run_append]
  rfl

variable {lib}

/-! ### What keeps the three states -/

/-- The group in `channelgroup` is the master group, unless it is stale. -/
theorem Clocked.eq_master (h : lib.Clocked) {x : Handle} (hx : lib.channelgroup = some x)
    (hlive : x.system = lib.fsystem) : x = master lib.fsystem := by
  cases h.clocks with
  | unset hnone => exact absurd (hnone.symm.trans hx) (by simp)
  | set hset => exact Option.some.inj (hx.symm.trans hset)
  | stale y hy hlt =>
    rw [Option.some.inj (hy.symm.trans hx)] at hlt
    omega

theorem Clocked.group_eq (h : lib.Clocked) {x : Handle} (hx : lib.fmod.group = some x) :
    x = master lib.fsystem := by
  cases h.clocks with
  | unset _ _ hgroup => exact hgroup x hx
  | set _ _ hgroup => exact hgroup x hx
  | stale _ _ _ _ hgroup => exact absurd (hgroup.symm.trans hx) (by simp)

theorem Clocked.le (h : lib.Clocked) {x : Handle} (hx : lib.channelgroup = some x) :
    x.system ≤ lib.fsystem := by
  cases h.clocks with
  | unset hnone => exact absurd (hnone.symm.trans hx) (by simp)
  | set hset => rw [← Option.some.inj (hset.symm.trans hx), master]
  | stale y hy hlt =>
    rw [← Option.some.inj (hy.symm.trans hx)]
    exact Nat.le_of_lt hlt

/-- A sound may start in the master group, unless `channelgroup` is stale. -/
theorem Clocked.of_group {lib' : StimuliLibrary} (h : lib.Clocked)
    (hfsystem : lib'.fsystem = lib.fsystem) (hchannelgroup : lib'.channelgroup = lib.channelgroup)
    (hdspSin : lib'.dspSin = lib.dspSin)
    (hfmod : lib'.fmod = lib.fmod ∨
      lib'.fmod = { lib.fmod with group := some (master lib.fsystem) } ∧
        ∀ x, lib.channelgroup = some x → x.system = lib.fsystem) : lib'.Clocked := by
  refine ⟨?_, ?_, ?_⟩
  · rcases hfmod with hfmod | ⟨hfmod, -⟩ <;> rw [hfmod, hfsystem] <;> exact h.system
  · rw [hdspSin, hfsystem, hchannelgroup]
    exact h.dspSin
  · rw [hfsystem, hchannelgroup]
    rcases hfmod with hfmod | ⟨hfmod, hlive⟩ <;> rw [hfmod]
    · exact h.clocks
    · cases h.clocks with
      | unset hnone hclocks => exact .unset hnone hclocks (by simp)
      | set hset hclocks => exact .set hset hclocks (by simp)
      | stale x hx hlt =>
        have hsystem := hlive x hx
        omega

theorem Clocked.of_eq {lib' : StimuliLibrary} (h : lib.Clocked)
    (hfsystem : lib'.fsystem = lib.fsystem) (hchannelgroup : lib'.channelgroup = lib.channelgroup)
    (hdspSin : lib'.dspSin = lib.dspSin) (hfmod : lib'.fmod = lib.fmod) : lib'.Clocked :=
  h.of_group hfsystem hchannelgroup hdspSin (Or.inl hfmod)

theorem Clocked.log (h : lib.Clocked) (cs : List Call)
    (hquiet : Stimuli.fmod.runFrom lib.fmod cs = lib.fmod) : (lib.log cs).Clocked :=
  h.of_eq rfl rfl rfl ((lib.fmod_log cs).trans hquiet)

theorem Clocked.playDSP (h : lib.Clocked) : lib.playDSP.Clocked := by
  refine h.of_group rfl rfl rfl ?_
  rw [fmod_playDSP, startedDSP]
  split_ifs with hlive
  · refine Or.inr ⟨rfl, ?_⟩
    intro x hx
    obtain ⟨y, hy, -, hfresh⟩ := h.dspSin
    rw [hy, Option.any_some, live, beq_iff_eq] at hlive
    by_contra hne
    have hlt := hfresh x hx (Nat.lt_of_le_of_ne (h.le hx) hne)
    omega
  · exact Or.inl rfl

theorem Clocked.startOscillator (h : lib.Clocked) (nr : Int) :
    (lib.startOscillator nr).Clocked := by
  rw [StimuliLibrary.startOscillator]
  split_ifs
  · exact (h.log [.setParameterFloat lib.dspSin (getPitch 4 nr.toNat)] rfl).playDSP
  · exact h

theorem Clocked.playSound (h : lib.Clocked) : lib.playSound.Clocked := by
  refine h.of_group rfl rfl rfl ?_
  rw [fmod_playSound, startedSound]
  split_ifs with hlive
  · obtain ⟨-, hgroup⟩ := Bool.and_eq_true_iff.mp hlive
    right
    cases hx : lib.channelgroup with
    | none => exact ⟨rfl, nofun⟩
    | some x =>
      rw [hx, Option.all_some, live, beq_iff_eq] at hgroup
      obtain rfl := h.eq_master hx hgroup
      exact ⟨rfl, fun y hy => (Option.some.inj hy) ▸ rfl⟩
  · exact Or.inl rfl

theorem Clocked.setChannelGroup (h : lib.Clocked) :
    (lib.log [.setChannelGroup lib.channel lib.channelgroup]).Clocked := by
  refine h.of_eq rfl rfl rfl ?_
  rw [fmod_log]
  cases hx : lib.channelgroup with
  | none => rfl
  | some x =>
    show lib.fmod.step (.setChannelGroup lib.channel (some x)) = lib.fmod
    rw [Fmod.step]
    split_ifs with hlive
    · obtain ⟨y, hy⟩ := Option.isSome_iff_exists.mp hlive.1
      rw [h.eq_master hx (hlive.2.trans h.system), ← h.group_eq hy, ← hy]
    · rfl

theorem Clocked.loadAudio (h : lib.Clocked) (path : String) :
    (lib.loadAudio files path).Clocked := by
  have hopened : (({ lib with pathToCurrentAudioFile := path }.createSound path).getLength
      files).Clocked := h.of_eq rfl rfl rfl (lib.fmod_opened files path)
  exact hopened.setChannelGroup.playSound

theorem Clocked.switchStimulus (h : lib.Clocked) (nr : Int) :
    (lib.switchStimulus files nr).2.Clocked := by
  rw [StimuliLibrary.switchStimulus]
  cases pathToAudio nr with
  | none => exact h
  | some path => exact h.loadAudio files path

/-- **A load keeps the three states.** -/
theorem Clocked.bLoadHostData (h : lib.Clocked) (d : HostData) :
    (lib.bLoadHostData files d).2.Clocked := by
  have hbegin : (lib.beginLoad d.stimulusNr d.loudness d.stimulusDuration).Clocked :=
    h.of_eq rfl rfl rfl (lib.fmod_beginLoad _ _ _)
  exact ((hbegin.startOscillator d.stimulusNr).switchStimulus files d.stimulusNr).log _ rfl

theorem Clocked.stopStimuli (h : lib.Clocked) : lib.stopStimuli.Clocked := by
  obtain ⟨x, hx, hle, -⟩ := h.dspSin
  refine ⟨congrArg Fmod.system lib.fmod_stopStimuli, ⟨x, hx, Nat.le_succ_of_le hle, ?_⟩, ?_⟩
  · exact fun _ _ _ => Nat.lt_succ_of_le hle
  · rw [fmod_stopStimuli]
    cases hgroup : lib.channelgroup with
    | none => exact .unset hgroup rfl nofun
    | some y => exact .stale y hgroup (Nat.lt_succ_of_le (h.le hgroup)) rfl rfl

theorem playCut_fsystem (lib : StimuliLibrary) (clockDSP : Nat) :
    (lib.playCut files clockDSP).fsystem = lib.fsystem := rfl

theorem playCut_dspSin (lib : StimuliLibrary) (clockDSP : Nat) :
    (lib.playCut files clockDSP).dspSin = lib.dspSin := rfl

theorem playCut_channelgroup (lib : StimuliLibrary) (clockDSP : Nat) :
    (lib.playCut files clockDSP).channelgroup = some (master lib.fsystem) := rfl

/-- Case 2 of `playStimuli` sets the stop clock of the master group. -/
theorem Clocked.playCut (h : lib.Clocked) (clockDSP : Nat) :
    (lib.playCut files clockDSP).Clocked := by
  obtain ⟨x, hx, hle, -⟩ := h.dspSin
  have hfmod := lib.fmod_playCut files clockDSP
  generalize lib.getMasterChannelGroup.startedSound = started at hfmod
  have hsystem : (lib.fmod.step (.playSound lib.fsystem lib.audio (some (master lib.fsystem))
      started)).system = lib.fsystem := (system_step rfl lib.fmod).trans h.system
  rw [Fmod.step, if_pos (show (master lib.fsystem).system = _ from hsystem.symm)] at hfmod
  refine ⟨?_, ?_, ?_⟩
  · rw [hfmod, playCut_fsystem]
    exact hsystem
  · rw [playCut_dspSin, playCut_fsystem, playCut_channelgroup]
    refine ⟨x, hx, hle, ?_⟩
    intro y hy hlt
    rw [← Option.some.inj hy] at hlt
    exact absurd hlt (lt_irrefl _)
  · rw [hfmod, playCut_fsystem, playCut_channelgroup]
    refine .set rfl List.mem_cons_self ?_
    cases started with
    | none => exact fun y hy => h.group_eq hy
    | some _ => exact fun y hy => (Option.some.inj hy).symm

theorem Clocked.playCases (h : lib.Clocked) (clockDSP : Nat) :
    (lib.playCases files clockDSP).Clocked := by
  rw [StimuliLibrary.playCases]
  split_ifs
  · exact h.stopStimuli
  · exact h.of_eq rfl rfl rfl (Machine.run_append _ _ _)
  · exact h.playCut files clockDSP
  · exact h.log _ rfl

theorem Clocked.playStimuli (h : lib.Clocked) (clockDSP : Nat) :
    (lib.playStimuli files clockDSP).Clocked :=
  ((h.log _ rfl).playCases files clockDSP).log _ rfl

theorem Clocked.playInfinitely (h : lib.Clocked) : (lib.playInfinitely heap).2.Clocked := by
  rw [StimuliLibrary.playInfinitely]
  split
  · split
    · exact h.log _ rfl
    · exact h
  · exact h

theorem Clocked.continueHijackedProtocol (h : lib.Clocked) (movementQueue : List Ref)
    (answers : Answers) :
    (lib.continueHijackedProtocol heap movementQueue answers).2.Clocked := by
  rw [StimuliLibrary.continueHijackedProtocol]
  split_ifs
  · exact h.playInfinitely heap
  · exact (h.log _ rfl).playInfinitely heap
  · refine Clocked.stopStimuli ?_
    have hcleared := ((h.log [.reachedTarget answers.pendingReached] rfl).log
      [.reachedTarget answers.finishedReached] rfl).log
      [.vSetHijackedProtocolIsCompletelyProcessed] rfl
    exact hcleared.of_eq rfl rfl rfl rfl
  · exact (h.log _ rfl).log _ rfl

theorem Clocked.look (h : lib.Clocked) (r : Ref) : (lib.look files heap r).Clocked :=
  (h.log _ rfl).bLoadHostData files _

theorem Clocked.popFront (h : lib.Clocked) (front : Ref) (rest : List Ref) :
    (lib.popFront front rest).Clocked :=
  (h.log [.vPlayStimulusIfToBeTriggered front] rfl).of_eq rfl rfl rfl rfl

theorem Clocked.loadedFront (h : lib.Clocked) (front : Ref) (rest : List Ref) :
    (lib.loadedFront files heap front rest).Clocked :=
  ((h.look files heap front).popFront front rest).bLoadHostData files _

theorem Clocked.taken (h : lib.Clocked) (front : Ref) (rest : List Ref) :
    (lib.taken files heap front rest).Clocked := by
  have htaken : ((lib.look files heap front).takeFront front rest).Clocked :=
    ((h.look files heap front).log [.setHijackedProtocol front] rfl).of_eq rfl rfl rfl rfl
  exact htaken.bLoadHostData files _

/-- **The stimuli part of a tick keeps the three states.** -/
theorem StimuliStep.clocked {files : Files} {heap : Store HostData} {movementQueue : List Ref}
    {answers : Answers} {cs : List Call} {out : Store HostData × StimuliLibrary}
    (h : lib.Clocked) (hstep : lib.StimuliStep files heap movementQueue answers cs out) :
    out.2.Clocked := by
  cases hstep with
  | hijacked r => exact (h.look files heap r).continueHijackedProtocol heap _ _
  | take front rest => exact (h.taken files heap front rest).continueHijackedProtocol heap _ _
  | remainder => exact (h.log _ rfl).playStimuli files _
  | idle => exact h.log _ rfl
  | play front rest => exact (h.loadedFront files heap front rest).playStimuli files _
  | pop front rest => exact (h.look files heap front).popFront front rest

/-! ### Leaks -/

/-- Only a `playStimuli` can leak. -/
theorem always_noLeak_iff {lib' : StimuliLibrary} {cs : List Call} (hp : lib.calls <+: lib'.calls)
    (hentered : lib'.entered = lib.entered ++ cs) (hcs : ∀ c ∈ cs, c.isPlay = false) :
    Stimuli.fmod.Always NoLeak lib'.calls ↔ Stimuli.fmod.Always NoLeak lib.calls := by
  obtain ⟨rest, hrest⟩ := hp
  have hmethods : rest.filter Call.isMethod = cs := by
    rw [entered, ← hrest, List.filter_append] at hentered
    exact List.append_cancel_left hentered
  rw [← hrest, Machine.always_append]
  refine and_iff_left (Machine.alwaysFrom_of_forall ?_ _)
  intro c hc
  apply noLeak_of_not_isPlay
  cases hplay : c.isPlay with
  | false => rfl
  | true =>
    rw [← hplay]
    exact hcs c (hmethods ▸ List.mem_filter.mpr ⟨hc, Call.isMethod_of_isPlay hplay⟩)

theorem always_noLeak_playStimuli_iff (clockDSP : Nat) :
    Stimuli.fmod.Always NoLeak (lib.playStimuli files clockDSP).calls ↔
      Stimuli.fmod.Always NoLeak lib.calls ∧ NoLeak lib.fmod (.playStimuli lib.audio
        lib.audioFileLengthMs lib.uiDesiredDurationMs lib.dFractionOfAudioFileLeftToPlay) := by
  have hentered : (lib.playStimuli files clockDSP).entered =
      (lib.log [.playStimuli lib.audio lib.audioFileLengthMs lib.uiDesiredDurationMs
        lib.dFractionOfAudioFileLeftToPlay]).entered ++
          if lib.audioFileLengthMs = 0 then [.stopStimuli] else [] := by
    rw [entered_playStimuli, entered_log, List.append_assoc]
    rfl
  have hstop : ∀ c ∈ (if lib.audioFileLengthMs = 0 then [.stopStimuli] else [] : List Call),
      c.isPlay = false := by
    intro c hc
    split_ifs at hc
    · rw [List.mem_singleton.mp hc]
      rfl
    · exact absurd hc (by simp)
  rw [always_noLeak_iff (prefix_playStimuli files lib clockDSP) hentered hstop]
  refine Machine.always_append.trans (and_congr_right' ?_)
  rw [Machine.alwaysFrom_cons]
  exact and_iff_left (Machine.alwaysFrom_nil _)

theorem startOscillator_channelgroup (lib : StimuliLibrary) (nr : Int) :
    (lib.startOscillator nr).channelgroup = lib.channelgroup := by
  rw [StimuliLibrary.startOscillator]
  split <;> rfl

theorem bLoadHostData_channelgroup (lib : StimuliLibrary) (d : HostData) :
    (lib.bLoadHostData files d).2.channelgroup = lib.channelgroup := by
  rw [StimuliLibrary.bLoadHostData, bLoadStimuli]
  show (StimuliLibrary.switchStimulus files _ d.stimulusNr).2.channelgroup = _
  rw [StimuliLibrary.switchStimulus]
  cases pathToAudio d.stimulusNr <;> exact startOscillator_channelgroup _ _

/-- A sound that is loaded while the master group is in `channelgroup` starts in it. -/
theorem loadAudio_group (h : lib.channelgroup = some (master lib.fsystem)) (path : String) :
    (lib.loadAudio files path).fmod.group = some (master lib.fsystem) := by
  have hstarted (s : Fmod) (x : Handle) : (s.step (.playSound lib.fsystem
      (some ⟨⟨lib.fsystem, lib.nextId⟩, path⟩) lib.channelgroup (some x))).group =
        some (master lib.fsystem) := by
    rw [h]
    rfl
  rw [StimuliLibrary.loadAudio, fmod_playSound, startedSound, if_pos]
  · exact hstarted _ _
  · show ((lib.fsystem == lib.fsystem) && lib.channelgroup.all lib.live) = true
    rw [h, Option.all_some, live, master, beq_self_eq_true]
    rfl

theorem bLoadHostData_group (h : lib.channelgroup = some (master lib.fsystem)) {d : HostData}
    {path : String} (known : pathToAudio d.stimulusNr = some path) :
    (lib.bLoadHostData files d).2.fmod.group = some (master lib.fsystem) := by
  have hfsystem := startOscillator_fsystem
    (lib.beginLoad d.stimulusNr d.loudness d.stimulusDuration) d.stimulusNr
  have hgroup := startOscillator_channelgroup
    (lib.beginLoad d.stimulusNr d.loudness d.stimulusDuration) d.stimulusNr
  generalize hstart : (lib.beginLoad d.stimulusNr d.loudness d.stimulusDuration).startOscillator
    d.stimulusNr = start at hfsystem hgroup
  rw [StimuliLibrary.bLoadHostData, bLoadStimuli, hstart, StimuliLibrary.switchStimulus, known]
  show ((start.loadAudio files path).log _).fmod.group = _
  rw [fmod_log]
  show (start.loadAudio files path).fmod.group = _
  rw [show lib.fsystem = start.fsystem from hfsystem.symm]
  refine loadAudio_group files (hgroup.trans (h.trans ?_)) path
  rw [hfsystem]
  rfl

theorem look_fsystem (lib : StimuliLibrary) (r : Ref) :
    (lib.look files heap r).fsystem = lib.fsystem := by
  rw [StimuliLibrary.look, bLoadHostData_fsystem]
  rfl

theorem look_channelgroup (lib : StimuliLibrary) (r : Ref) :
    (lib.look files heap r).channelgroup = lib.channelgroup := by
  rw [StimuliLibrary.look, bLoadHostData_channelgroup]
  rfl

theorem popFront_fsystem (lib : StimuliLibrary) (front : Ref) (rest : List Ref) :
    (lib.popFront front rest).fsystem = lib.fsystem := rfl

theorem popFront_channelgroup (lib : StimuliLibrary) (front : Ref) (rest : List Ref) :
    (lib.popFront front rest).channelgroup = lib.channelgroup := rfl

theorem loadedFront_fsystem (lib : StimuliLibrary) (front : Ref) (rest : List Ref) :
    (lib.loadedFront files heap front rest).fsystem = lib.fsystem := by
  rw [StimuliLibrary.loadedFront, bLoadHostData_fsystem, popFront_fsystem, look_fsystem]

theorem loadedFront_channelgroup (lib : StimuliLibrary) (front : Ref) (rest : List Ref) :
    (lib.loadedFront files heap front rest).channelgroup = lib.channelgroup := by
  rw [StimuliLibrary.loadedFront, bLoadHostData_channelgroup, popFront_channelgroup,
    look_channelgroup]

theorem loadedFront_group {front : Ref} {rest : List Ref} {path : String}
    (h : lib.channelgroup = some (master lib.fsystem))
    (known : pathToAudio (heap.deref front).stimulusNr = some path) :
    (lib.loadedFront files heap front rest).fmod.group = some (master lib.fsystem) := by
  have hsystem : ((lib.look files heap front).popFront front rest).fsystem = lib.fsystem := by
    rw [popFront_fsystem, look_fsystem]
  have hgroup : ((lib.look files heap front).popFront front rest).channelgroup =
      some (master ((lib.look files heap front).popFront front rest).fsystem) := by
    rw [popFront_channelgroup, look_channelgroup, hsystem, h]
  rw [StimuliLibrary.loadedFront, bLoadHostData_group files hgroup known, hsystem]

/-- The front of the queue is played at least once to its end, and `channelgroup` is the
master group of the system, which some stimulus has given a stop clock. -/
structure Inherits (files : Files) (heap : Store HostData) (lib : StimuliLibrary) (front : Ref) :
    Prop where
  group : lib.channelgroup = some (master lib.fsystem)
  free : lib.hostDataOfHijackedProtocol = none
  queue : lib.stimuliQueue.head? = some front
  unbound : (heap.deref front).stimulusDuration ≠ iPlayStimulusAsLongAsMovementsPending
  triggered : (heap.deref front).toBeTriggerd = true
  length : ∃ path, pathToAudio (heap.deref front).stimulusNr = some path ∧
    0 < files.length path ∧ files.length path ≤ (heap.deref front).stimulusDuration

theorem Inherits.eq_front {r front : Ref} {rest : List Ref} (h : Inherits files heap lib r)
    (queue : lib.stimuliQueue = front :: rest) : r = front := by
  have hr := h.queue
  rw [queue] at hr
  exact (Option.some.inj hr).symm

theorem not_isPlay_continueCalls (heap : Store HostData) (r : Ref) (movementQueue : List Ref)
    (answers : Answers) :
    ∀ c ∈ continueCalls heap r movementQueue answers, c.isPlay = false := by
  rw [continueCalls, loopCalls]
  split_ifs <;> simp [Call.isPlay]

/-- A stimulus that has been popped and loaded inherits a stop clock or not. -/
theorem noLeak_loadedFront_iff (h : lib.Clocked) {front : Ref} {rest : List Ref}
    (free : lib.hostDataOfHijackedProtocol = none) (queue : lib.stimuliQueue = front :: rest)
    (unbound : (heap.deref front).stimulusDuration ≠ iPlayStimulusAsLongAsMovementsPending)
    (triggered : (heap.deref front).toBeTriggerd = true)
    (known : (pathToAudio (heap.deref front).stimulusNr).isSome = true) {audio : Option Sound}
    {fraction : ℚ} :
    NoLeak (lib.loadedFront files heap front rest).fmod (.playStimuli audio
        (lib.loadedFront files heap front rest).audioFileLengthMs
        (lib.loadedFront files heap front rest).uiDesiredDurationMs fraction) ↔
      ∀ r, ¬ Inherits files heap lib r := by
  obtain ⟨path, hpath⟩ := Option.isSome_iff_exists.mp known
  rw [loadedFront_audioFileLengthMs files heap lib hpath, loadedFront_uiDesiredDurationMs]
  have hclocks := (h.loadedFront files heap front rest).clocks
  rw [loadedFront_fsystem, loadedFront_channelgroup] at hclocks
  constructor
  · intro hno r hi
    obtain rfl := hi.eq_front files heap queue
    obtain ⟨path', hpath', hpos, hle⟩ := hi.length
    obtain rfl := Option.some.inj (hpath.symm.trans hpath')
    refine hno ⟨Nat.ne_of_gt hpos, hle, _, loadedFront_group files heap hi.group hpath, ?_⟩
    cases hclocks with
    | unset hnone => exact absurd (hnone.symm.trans hi.group) (by simp)
    | set _ hmem => exact hmem
    | stale x hx hlt =>
      rw [Option.some.inj (hx.symm.trans hi.group)] at hlt
      exact absurd hlt (lt_irrefl _)
  · intro hno hleak
    obtain ⟨hne, hle, group, hgroup, hmem⟩ := hleak
    refine hno front ⟨?_, free, by rw [queue]; rfl, unbound, triggered, path, hpath,
      Nat.pos_of_ne_zero hne, hle⟩
    cases hclocks with
    | unset _ hclocks => exact absurd (hclocks ▸ hmem) (by simp)
    | set hset => exact hset
    | stale _ _ _ hclocks => exact absurd (hclocks ▸ hmem) (by simp)

/-- **Which way of a tick leaks a stop clock.** -/
theorem StimuliStep.noLeak_iff_not_inherits {files : Files} {heap : Store HostData}
    {movementQueue : List Ref} {answers : Answers} {cs : List Call}
    {out : Store HostData × StimuliLibrary}
    (h : lib.Clocked) (howes : lib.playback.Owes) (hp : lib.calls <+: out.2.calls)
    (hstep : lib.StimuliStep files heap movementQueue answers cs out) :
    Stimuli.fmod.Always NoLeak out.2.calls ↔
      Stimuli.fmod.Always NoLeak lib.calls ∧ ∀ r, ¬ Inherits files heap lib r := by
  have hentered := hstep.entered
  cases hstep with
  | hijacked r hijacked =>
    rw [always_noLeak_iff hp hentered]
    · refine (and_iff_left ?_).symm
      exact fun _ hi => absurd (hi.free.symm.trans hijacked) (by simp)
    · exact List.forall_mem_cons.mpr ⟨rfl, not_isPlay_continueCalls heap r _ _⟩
  | take front rest free queue bound =>
    rw [always_noLeak_iff hp hentered]
    · refine (and_iff_left ?_).symm
      intro r hi
      obtain rfl := hi.eq_front files heap queue
      exact hi.unbound bound
    · simpa [Call.isPlay, loadCall] using not_isPlay_continueCalls heap front _ _
  | remainder free queue owed =>
    rw [always_noLeak_playStimuli_iff]
    refine and_congr ?_ ⟨?_, ?_⟩
    · exact always_noLeak_iff (lib.prefix_log _) (lib.entered_log _) (by simp [Call.isMethod])
    · exact fun _ r hi => absurd hi.queue (by simp [queue])
    · intro _ hleak
      obtain ⟨-, hle, -⟩ := hleak
      exact absurd (howes.lt_length (fraction_ne_zero owed)) (Nat.not_lt.mpr hle)
  | idle free queue =>
    rw [always_noLeak_iff hp hentered (by simp)]
    refine (and_iff_left ?_).symm
    exact fun r hi => absurd hi.queue (by simp [queue])
  | play front rest free queue unbound triggered known =>
    rw [always_noLeak_playStimuli_iff,
      noLeak_loadedFront_iff files heap h free queue unbound triggered known]
    refine and_congr_left' ?_
    obtain ⟨cs, hloaded⟩ := goes_loadedFront files heap lib front rest
    refine always_noLeak_iff ⟨cs, hloaded.calls.symm⟩
      (entered_loadedFront files heap lib front rest) ?_
    simp [Call.isPlay, loadCall]
  | pop front rest free queue unbound untriggered =>
    rw [always_noLeak_iff hp hentered (by simp [Call.isPlay, loadCall])]
    refine (and_iff_left ?_).symm
    intro r hi
    obtain rfl := hi.eq_front files heap queue
    exact absurd (untriggered.symm.trans hi.triggered) (by simp)

end StimuliLibrary

end Orbiter.Stimuli
