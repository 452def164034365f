import Orbiter.Stimuli.Playback

/-!
# What a tick does to the stimuli

The six ways the stimuli part of a tick can go, and what the log of calls says
about each: which stimulus left the queue, which one was started, looped, stopped
or played once more for its remainder.

* `processStimuli_step`: **the six ways**, with the library each of them leaves.
* `eventsOf`: the events in a log of calls.
* `eventsBetween_of_entered`: the events of a tick are those of the methods it enters.
-/

namespace Orbiter.Stimuli

open Cxx Toolbox

/-- What happens to the stimuli.  `play` is a `playStimuli` right after the stimulus was
popped and loaded, `loop` the unpausing of an infinite loop, `remainder` any other
`playStimuli`. -/
inductive Event
  | play (front : Ref) (audio : Option Sound) (audioFileLengthMs uiDesiredDurationMs : Nat)
  | pop (front : Ref)
  | take (front : Ref)
  | loop (hijacked : Ref)
  | remainder (audio : Option Sound) (audioFileLengthMs uiDesiredDurationMs : Nat)
      (dFractionOfAudioFileLeftToPlay : ℚ)
  | clear
  | stop
  deriving DecidableEq

/-- One of the methods of the library is entered, or the motor is asked. -/
def Call.isMethod : Call → Bool
  | .bLoadStimuli _ _ _ => true
  | .playStimuli _ _ _ _ => true
  | .stopStimuli => true
  | .vPlayStimulusIfToBeTriggered _ => true
  | .setHijackedProtocol _ => true
  | .playInfinitely _ => true
  | .vSetHijackedProtocolIsCompletelyProcessed => true
  | .reachedTarget _ => true
  | _ => false

def loadCall (d : HostData) : Call :=
  .bLoadStimuli d.stimulusNr d.loudness d.stimulusDuration

/-- The events in a log of methods.  A load alone is none. -/
def eventsOf : List Call → List Event
  | .vPlayStimulusIfToBeTriggered front :: .bLoadStimuli _ _ _ ::
      .playStimuli audio length desired _ :: cs => .play front audio length desired :: eventsOf cs
  | .vPlayStimulusIfToBeTriggered front :: cs => .pop front :: eventsOf cs
  | .playStimuli audio length desired fraction :: cs =>
    .remainder audio length desired fraction :: eventsOf cs
  | .setHijackedProtocol front :: cs => .take front :: eventsOf cs
  | .playInfinitely hijacked :: cs => .loop hijacked :: eventsOf cs
  | .vSetHijackedProtocolIsCompletelyProcessed :: cs => .clear :: eventsOf cs
  | .stopStimuli :: cs => .stop :: eventsOf cs
  | _ :: cs => eventsOf cs
  | [] => []

/-- The movement-bound stimulus is not started twice. -/
theorem Playback.silence_toBeTriggerd (heap : Store HostData) {p : Playback} {r : Ref}
    (h : p.hijacked = some r) : ((p.silence heap).deref r).toBeTriggerd = false := by
  rw [silence, h]
  simp only
  split
  · rename_i ht
    have hlt : r < heap.next := by
      by_contra hge
      rw [Store.deref_of_ge (Nat.le_of_not_lt hge)] at ht
      exact absurd ht (by decide)
    rw [Store.deref_update_of_lt hlt]
  · rename_i ht
    exact Bool.eq_false_iff.mpr ht

namespace StimuliLibrary

variable (files : Files) (heap : Store HostData) (lib : StimuliLibrary)

/-! ### The six ways -/

/-- A look at a stimulus, behind the update of the system. -/
def look (r : Ref) : StimuliLibrary := (lib.updateFSystem.bLoadHostData files (heap.deref r)).2

def popFront (front : Ref) (rest : List Ref) : StimuliLibrary :=
  { lib.log [.vPlayStimulusIfToBeTriggered front] with stimuliQueue := rest }

def takeFront (front : Ref) (rest : List Ref) : StimuliLibrary :=
  { lib.log [.setHijackedProtocol front] with
    hostDataOfHijackedProtocol := some front
    stimuliQueue := rest }

/-- The library once a stimulus has been taken and loaded again. -/
def taken (front : Ref) (rest : List Ref) : StimuliLibrary :=
  (((lib.look files heap front).takeFront front rest).bLoadHostData files (heap.deref front)).2

def loadedFront (front : Ref) (rest : List Ref) : StimuliLibrary :=
  (((lib.look files heap front).popFront front rest).bLoadHostData files (heap.deref front)).2

/-- The looped playback of the hijacked protocol, when it is started. -/
def loopCalls (r : Ref) : List Call :=
  if (heap.deref r).toBeTriggerd then [.playInfinitely r] else []

/-- What a movement-bound stimulus enters: its start, its end, or nothing. -/
def continueCalls (r : Ref) (movementQueue : List Ref) (answers : Answers) : List Call :=
  if movementQueue ≠ [] then loopCalls heap r
  else .reachedTarget answers.pendingReached ::
    if answers.pendingReached = false then loopCalls heap r
    else .reachedTarget answers.finishedReached ::
      if answers.finishedReached then [.vSetHijackedProtocolIsCompletelyProcessed, .stopStimuli]
      else []

/-- What `playStimuli` enters: itself, and the stop for a file without a length. -/
def playCalls : List Call :=
  .playStimuli lib.audio lib.audioFileLengthMs lib.uiDesiredDurationMs
    lib.dFractionOfAudioFileLeftToPlay :: if lib.audioFileLengthMs = 0 then [.stopStimuli] else []

/-- **What the stimuli part of a tick can do**: go on with the hijacked protocol, take
one, play a remainder, nothing, play the front of the queue or drop it.  The list has
the methods entered. -/
inductive StimuliStep (movementQueue : List Ref) (answers : Answers) :
    List Call → Store HostData × StimuliLibrary → Prop
  | hijacked (r : Ref) (hijacked : lib.hostDataOfHijackedProtocol = some r)
      (bound : (heap.deref r).stimulusDuration = iPlayStimulusAsLongAsMovementsPending)
      (known : (pathToAudio (heap.deref r).stimulusNr).isSome = true) :
      StimuliStep movementQueue answers
        (loadCall (heap.deref r) :: continueCalls heap r movementQueue answers)
        ((lib.look files heap r).continueHijackedProtocol heap movementQueue answers)
  | take (front : Ref) (rest : List Ref) (free : lib.hostDataOfHijackedProtocol = none)
      (queue : lib.stimuliQueue = front :: rest)
      (bound : (heap.deref front).stimulusDuration = iPlayStimulusAsLongAsMovementsPending)
      (known : (pathToAudio (heap.deref front).stimulusNr).isSome = true) :
      StimuliStep movementQueue answers
        (loadCall (heap.deref front) :: .setHijackedProtocol front :: loadCall (heap.deref front) ::
          continueCalls heap front movementQueue answers)
        ((lib.taken files heap front rest).continueHijackedProtocol heap movementQueue answers)
  | remainder (free : lib.hostDataOfHijackedProtocol = none) (queue : lib.stimuliQueue = [])
      (owed : lib.bGetIsThereAFractionLeftToPlay = true) :
      StimuliStep movementQueue answers lib.playCalls
        (heap, lib.updateFSystem.playStimuli files answers.clockDSP)
  | idle (free : lib.hostDataOfHijackedProtocol = none) (queue : lib.stimuliQueue = [])
      (owed : lib.bGetIsThereAFractionLeftToPlay = false) :
      StimuliStep movementQueue answers [] (heap, lib.updateFSystem)
  | play (front : Ref) (rest : List Ref) (free : lib.hostDataOfHijackedProtocol = none)
      (queue : lib.stimuliQueue = front :: rest)
      (unbound : (heap.deref front).stimulusDuration ≠ iPlayStimulusAsLongAsMovementsPending)
      (triggered : (heap.deref front).toBeTriggerd = true)
      (known : (pathToAudio (heap.deref front).stimulusNr).isSome = true) :
      StimuliStep movementQueue answers
        (loadCall (heap.deref front) :: .vPlayStimulusIfToBeTriggered front ::
          loadCall (heap.deref front) :: (lib.loadedFront files heap front rest).playCalls)
        (heap, (lib.loadedFront files heap front rest).playStimuli files answers.clockDSP)
  | pop (front : Ref) (rest : List Ref) (free : lib.hostDataOfHijackedProtocol = none)
      (queue : lib.stimuliQueue = front :: rest)
      (unbound : (heap.deref front).stimulusDuration ≠ iPlayStimulusAsLongAsMovementsPending)
      (untriggered : (heap.deref front).toBeTriggerd = false) :
      StimuliStep movementQueue answers
        [loadCall (heap.deref front), .vPlayStimulusIfToBeTriggered front]
        (heap, (lib.look files heap front).popFront front rest)

theorem updateFSystem_hostDataOfHijackedProtocol :
    lib.updateFSystem.hostDataOfHijackedProtocol = lib.hostDataOfHijackedProtocol := rfl

theorem updateFSystem_stimuliQueue : lib.updateFSystem.stimuliQueue = lib.stimuliQueue := rfl

theorem look_playback (r : Ref) :
    (lib.look files heap r).playback = lib.playback.load files (heap.deref r) :=
  bLoadHostData_playback files _ _

theorem look_stimuliQueue (r : Ref) : (lib.look files heap r).stimuliQueue = lib.stimuliQueue :=
  congrArg Playback.queue (lib.look_playback files heap r)

theorem look_hostDataOfHijackedProtocol (r : Ref) :
    (lib.look files heap r).hostDataOfHijackedProtocol = lib.hostDataOfHijackedProtocol :=
  congrArg Playback.hijacked (lib.look_playback files heap r)

theorem fraction_ne_zero {lib : StimuliLibrary}
    (h : lib.bGetIsThereAFractionLeftToPlay = true) : lib.dFractionOfAudioFileLeftToPlay ≠ 0 := by
  intro h0
  rw [bGetIsThereAFractionLeftToPlay, h0] at h
  exact absurd h (by decide +kernel)

theorem look_bGetIsThereAFractionLeftToPlay (r : Ref) :
    (lib.look files heap r).bGetIsThereAFractionLeftToPlay = false := by
  have h : (lib.look files heap r).dFractionOfAudioFileLeftToPlay = 0 :=
    congrArg Playback.fraction (lib.look_playback files heap r)
  rw [bGetIsThereAFractionLeftToPlay, h]
  decide +kernel

/-! The check of each way -/

theorem check_hijacked {r : Ref} (h : lib.hostDataOfHijackedProtocol = some r)
    (bound : (heap.deref r).stimulusDuration = iPlayStimulusAsLongAsMovementsPending)
    (known : (pathToAudio (heap.deref r).stimulusNr).isSome = true) :
    lib.updateFSystem.bIsStimulusToPlayAsLongAsMovementsPending files heap =
      (true, lib.look files heap r) := by
  simp only [bIsStimulusToPlayAsLongAsMovementsPending,
    show lib.updateFSystem.hostDataOfHijackedProtocol = some r from h, bLoadHostData_fst, known,
    if_true]
  rw [bLoadHostData_desired, bound, beq_self_eq_true]
  rfl

theorem check_front {front : Ref} {rest : List Ref} (free : lib.hostDataOfHijackedProtocol = none)
    (queue : lib.stimuliQueue = front :: rest) :
    lib.updateFSystem.bIsStimulusToPlayAsLongAsMovementsPending files heap =
      ((heap.deref front).stimulusDuration == iPlayStimulusAsLongAsMovementsPending,
        lib.look files heap front) := by
  simp only [bIsStimulusToPlayAsLongAsMovementsPending,
    show lib.updateFSystem.hostDataOfHijackedProtocol = none from free,
    show lib.updateFSystem.stimuliQueue = front :: rest from queue]
  rw [bLoadHostData_desired]
  rfl

theorem check_nil (free : lib.hostDataOfHijackedProtocol = none) (queue : lib.stimuliQueue = []) :
    lib.updateFSystem.bIsStimulusToPlayAsLongAsMovementsPending files heap =
      (false, lib.updateFSystem) := by
  simp only [bIsStimulusToPlayAsLongAsMovementsPending,
    show lib.updateFSystem.hostDataOfHijackedProtocol = none from free,
    show lib.updateFSystem.stimuliQueue = [] from queue]

/-- Nothing is taken while a hijacked protocol is in progress. -/
theorem setHijackedProtocol_of_hijacked {r : Ref} (h : lib.hostDataOfHijackedProtocol = some r) :
    lib.setHijackedProtocol files heap = lib := by
  rw [setHijackedProtocol, h]

theorem setHijackedProtocol_of_front {front : Ref} {rest : List Ref}
    (free : lib.hostDataOfHijackedProtocol = none) (queue : lib.stimuliQueue = front :: rest) :
    lib.setHijackedProtocol files heap =
      ((lib.takeFront front rest).bLoadHostData files (heap.deref front)).2 := by
  rw [setHijackedProtocol, free, queue]
  rfl

theorem vPlayStimulusIfToBeTriggered_of_front {front : Ref} {rest : List Ref}
    (queue : lib.stimuliQueue = front :: rest) (clockDSP : Nat) :
    lib.vPlayStimulusIfToBeTriggered files heap clockDSP =
      if (heap.deref front).toBeTriggerd then
        if (pathToAudio (heap.deref front).stimulusNr).isSome then
          ((lib.popFront front rest).bLoadHostData files (heap.deref front)).2.playStimuli files
            clockDSP
        else ((lib.popFront front rest).bLoadHostData files (heap.deref front)).2
      else lib.popFront front rest := by
  rw [vPlayStimulusIfToBeTriggered, queue]
  simp only [← bLoadHostData_fst files (lib.popFront front rest)]
  rfl

theorem bAdapt_of_check {next : StimuliLibrary} {pending : Bool}
    (check : lib.bIsStimulusToPlayAsLongAsMovementsPending files heap = (pending, next))
    (movementQueue : List Ref) (answers : Answers) :
    lib.bAdaptStimulusParametersDueToHijacking files heap movementQueue answers =
      if pending then
        (true, (next.setHijackedProtocol files heap).continueHijackedProtocol heap movementQueue
          answers)
      else (false, heap, next) := by
  rw [bAdaptStimulusParametersDueToHijacking, check]

/-- With no hijacked protocol to go on with, a remainder goes first, then the queue. -/
theorem processStimuli_of_not_adapted {next : StimuliLibrary} (movementQueue : List Ref)
    (answers : Answers)
    (adapt : lib.updateFSystem.bAdaptStimulusParametersDueToHijacking files heap movementQueue
      answers = (false, heap, next)) :
    lib.processStimuli files heap movementQueue answers =
      if next.bGetIsThereAFractionLeftToPlay then (heap, next.playStimuli files answers.clockDSP)
      else if next.stimuliQueue ≠ [] then
        (heap, next.vPlayStimulusIfToBeTriggered files heap answers.clockDSP)
      else (heap, next) := by
  rw [processStimuli, adapt]
  rfl

theorem processStimuli_of_adapted {out : Store HostData × StimuliLibrary}
    (movementQueue : List Ref) (answers : Answers)
    (adapt : lib.updateFSystem.bAdaptStimulusParametersDueToHijacking files heap movementQueue
      answers = (true, out)) :
    lib.processStimuli files heap movementQueue answers = out := by
  rw [processStimuli, adapt]
  rfl

/-- **The six ways the stimuli part of a tick can go.** -/
theorem processStimuli_step (hk : Known heap) (hp : lib.playback.Playable heap)
    (movementQueue : List Ref) (answers : Answers) :
    ∃ cs, lib.StimuliStep files heap movementQueue answers cs
      (lib.processStimuli files heap movementQueue answers) := by
  cases hj : lib.hostDataOfHijackedProtocol with
  | some r =>
    obtain ⟨bound, known⟩ := hp r hj
    have hadapt := bAdapt_of_check files heap lib.updateFSystem
      (check_hijacked files heap lib hj bound known) movementQueue answers
    rw [if_pos rfl, setHijackedProtocol_of_hijacked files heap _
      ((look_hostDataOfHijackedProtocol files heap lib r).trans hj)] at hadapt
    rw [processStimuli_of_adapted files heap lib movementQueue answers hadapt]
    exact ⟨_, .hijacked r hj bound known⟩
  | none =>
    cases hq : lib.stimuliQueue with
    | nil =>
      have hadapt := bAdapt_of_check files heap lib.updateFSystem
        (check_nil files heap lib hj hq) movementQueue answers
      rw [processStimuli_of_not_adapted files heap lib movementQueue answers hadapt,
        updateFSystem_stimuliQueue, if_neg (not_not_intro hq)]
      cases howed : lib.bGetIsThereAFractionLeftToPlay with
      | true =>
        rw [if_pos (show lib.updateFSystem.bGetIsThereAFractionLeftToPlay = true from howed)]
        exact ⟨_, .remainder hj hq howed⟩
      | false =>
        rw [if_neg (show ¬ lib.updateFSystem.bGetIsThereAFractionLeftToPlay = true from
          Bool.eq_false_iff.mp howed)]
        exact ⟨_, .idle hj hq howed⟩
    | cons front rest =>
      have hadapt := bAdapt_of_check files heap lib.updateFSystem
        (check_front files heap lib hj hq) movementQueue answers
      have hfree := (look_hostDataOfHijackedProtocol files heap lib front).trans hj
      have hqueue := (look_stimuliQueue files heap lib front).trans hq
      by_cases bound : (heap.deref front).stimulusDuration = iPlayStimulusAsLongAsMovementsPending
      · rw [if_pos (by rw [bound, beq_self_eq_true]),
          setHijackedProtocol_of_front files heap _ hfree hqueue] at hadapt
        rw [processStimuli_of_adapted files heap lib movementQueue answers hadapt]
        refine ⟨_, .take front rest hj hq bound ((hk front).resolve_left ?_)⟩
        intro hz
        rw [hz] at bound
        exact absurd bound (by decide)
      · rw [if_neg (by rwa [beq_iff_eq])] at hadapt
        rw [processStimuli_of_not_adapted files heap lib movementQueue answers hadapt,
          if_neg (by rw [look_bGetIsThereAFractionLeftToPlay]; simp),
          if_pos (by rw [hqueue]; simp),
          vPlayStimulusIfToBeTriggered_of_front files heap _ hqueue]
        cases triggered : (heap.deref front).toBeTriggerd with
        | true =>
          obtain ⟨path, hpath⟩ := hk.exists_path triggered
          have known : (pathToAudio (heap.deref front).stimulusNr).isSome = true := by
            rw [hpath, Option.isSome_some]
          rw [if_pos rfl, if_pos known]
          exact ⟨_, .play front rest hj hq bound triggered known⟩
        | false =>
          rw [if_neg (by simp)]
          exact ⟨_, .pop front rest hj hq bound triggered⟩

/-! ### The sound that is loaded -/

@[simp] theorem log_fsystem (cs : List Call) : (lib.log cs).fsystem = lib.fsystem := rfl
@[simp] theorem log_audio (cs : List Call) : (lib.log cs).audio = lib.audio := rfl

@[simp] theorem startOscillator_fsystem (nr : Int) :
    (lib.startOscillator nr).fsystem = lib.fsystem := by
  rw [startOscillator]
  split <;> rfl

theorem bLoadHostData_fsystem (d : HostData) :
    (lib.bLoadHostData files d).2.fsystem = lib.fsystem := by
  rw [bLoadHostData, bLoadStimuli, log_fsystem, switchStimulus]
  cases pathToAudio d.stimulusNr <;> exact startOscillator_fsystem _ _

/-- A known stimulus becomes a sound of the system stored now. -/
theorem bLoadHostData_audio {d : HostData} {path : String}
    (h : pathToAudio d.stimulusNr = some path) :
    ∃ sound, (lib.bLoadHostData files d).2.audio = some sound ∧
      sound.system = lib.fsystem ∧ sound.path = path := by
  rw [bLoadHostData, bLoadStimuli, log_audio, switchStimulus, h]
  exact ⟨_, rfl, startOscillator_fsystem _ _, rfl⟩

@[simp] theorem playCases_audio (clockDSP : Nat) :
    (lib.playCases files clockDSP).audio = lib.audio := by
  rw [playCases]
  split_ifs <;> rfl

@[simp] theorem playStimuli_audio (clockDSP : Nat) :
    (lib.playStimuli files clockDSP).audio = lib.audio := by
  rw [playStimuli, log_audio, playCases_audio, log_audio]

theorem playStimuli_stimuliQueue (clockDSP : Nat) :
    (lib.playStimuli files clockDSP).stimuliQueue = lib.stimuliQueue :=
  (congrArg Playback.queue (lib.playStimuli_playback files clockDSP)).trans
    (Playback.play_queue files _)

theorem playStimuli_hostDataOfHijackedProtocol (clockDSP : Nat) :
    (lib.playStimuli files clockDSP).hostDataOfHijackedProtocol =
      lib.hostDataOfHijackedProtocol :=
  (congrArg Playback.hijacked (lib.playStimuli_playback files clockDSP)).trans
    (Playback.play_hijacked files _)

/-! ### The methods entered -/

def entered : List Call := lib.calls.filter Call.isMethod

@[simp] theorem entered_log (cs : List Call) :
    (lib.log cs).entered = lib.entered ++ cs.filter Call.isMethod := List.filter_append _ _

@[simp] theorem entered_updateFSystem : lib.updateFSystem.entered = lib.entered :=
  (lib.entered_log _).trans (List.append_nil _)

@[simp] theorem entered_playSound : lib.playSound.entered = lib.entered :=
  (List.filter_append _ _).trans (List.append_nil _)

@[simp] theorem entered_playDSP : lib.playDSP.entered = lib.entered :=
  (List.filter_append _ _).trans (List.append_nil _)

@[simp] theorem entered_startOscillator (nr : Int) :
    (lib.startOscillator nr).entered = lib.entered := by
  rw [startOscillator]
  split
  · rw [entered_playDSP, entered_log]
    exact List.append_nil _
  · rfl

@[simp] theorem entered_switchStimulus (nr : Int) :
    (lib.switchStimulus files nr).2.entered = lib.entered := by
  rw [switchStimulus]
  cases pathToAudio nr with
  | none => rfl
  | some path =>
    show (lib.loadAudio files path).entered = lib.entered
    rw [loadAudio, entered_playSound, entered_log]
    simp [entered, getLength, createSound, Call.isMethod]

@[simp] theorem entered_bLoadHostData (d : HostData) :
    (lib.bLoadHostData files d).2.entered = lib.entered ++ [loadCall d] := by
  have hbegin : (lib.beginLoad d.stimulusNr d.loudness d.stimulusDuration).entered =
      lib.entered ++ [loadCall d] := List.filter_append _ _
  rw [bLoadHostData, bLoadStimuli, entered_log, entered_switchStimulus, entered_startOscillator,
    hbegin]
  exact List.append_nil _

@[simp] theorem entered_stopStimuli :
    lib.stopStimuli.entered = lib.entered ++ [.stopStimuli] := List.filter_append _ _

@[simp] theorem entered_playLooped : (lib.playLooped files).entered = lib.entered :=
  (List.filter_append _ _).trans (List.append_nil _)

@[simp] theorem entered_playCut (clockDSP : Nat) :
    (lib.playCut files clockDSP).entered = lib.entered := by
  simp [entered, playCut, log, playSound, getMasterChannelGroup, Call.isMethod]

theorem entered_playCases (clockDSP : Nat) : (lib.playCases files clockDSP).entered =
    lib.entered ++ if lib.audioFileLengthMs = 0 then [.stopStimuli] else [] := by
  rw [playCases]
  split_ifs
  · exact lib.entered_stopStimuli
  · rw [entered_playLooped, List.append_nil]
  · rw [entered_playCut, List.append_nil]
  · rw [entered_log]
    rfl

theorem entered_playStimuli (clockDSP : Nat) :
    (lib.playStimuli files clockDSP).entered = lib.entered ++ lib.playCalls := by
  rw [playStimuli, entered_log, entered_playCases, entered_log]
  show (lib.entered ++ [_] ++ ite (lib.audioFileLengthMs = 0) _ _) ++ [] = _
  rw [List.append_nil, List.append_assoc]
  rfl

theorem entered_look (r : Ref) :
    (lib.look files heap r).entered = lib.entered ++ [loadCall (heap.deref r)] := by
  rw [look, entered_bLoadHostData, entered_updateFSystem]

@[simp] theorem entered_popFront (front : Ref) (rest : List Ref) :
    (lib.popFront front rest).entered = lib.entered ++ [.vPlayStimulusIfToBeTriggered front] :=
  lib.entered_log _

@[simp] theorem entered_takeFront (front : Ref) (rest : List Ref) :
    (lib.takeFront front rest).entered = lib.entered ++ [.setHijackedProtocol front] :=
  lib.entered_log _

theorem entered_playInfinitely {r : Ref} (h : lib.hostDataOfHijackedProtocol = some r) :
    (lib.playInfinitely heap).2.entered = lib.entered ++ loopCalls heap r := by
  rw [playInfinitely, h, loopCalls]
  simp only
  split
  · exact lib.entered_log _
  · exact (List.append_nil _).symm

theorem entered_continueHijackedProtocol {r : Ref} (h : lib.hostDataOfHijackedProtocol = some r)
    (movementQueue : List Ref) (answers : Answers) :
    (lib.continueHijackedProtocol heap movementQueue answers).2.entered =
      lib.entered ++ continueCalls heap r movementQueue answers := by
  rw [continueHijackedProtocol, continueCalls]
  split_ifs with hqueue hpending hfinished
  · exact entered_playInfinitely heap lib h
  · simp only
    rw [entered_playInfinitely heap (lib.log [.reachedTarget answers.pendingReached]) h,
      entered_log, List.append_assoc]
    rfl
  · simp only
    rw [entered_stopStimuli]
    show (((lib.log _).log _).log [.vSetHijackedProtocolIsCompletelyProcessed]).entered ++ _ = _
    simp only [entered_log, List.append_assoc]
    rfl
  · simp only
    rw [entered_log, entered_log, List.append_assoc]
    rfl

theorem taken_playback (front : Ref) (rest : List Ref) :
    (lib.taken files heap front rest).playback =
      { (lib.playback.load files (heap.deref front)) with
        hijacked := some front
        queue := rest }.load files (heap.deref front) := by
  rw [taken, bLoadHostData_playback, ← look_playback files heap lib front]
  rfl

theorem taken_hostDataOfHijackedProtocol (front : Ref) (rest : List Ref) :
    (lib.taken files heap front rest).hostDataOfHijackedProtocol = some front :=
  congrArg Playback.hijacked (taken_playback files heap lib front rest)

theorem entered_taken (front : Ref) (rest : List Ref) :
    (lib.taken files heap front rest).entered = lib.entered ++
      [loadCall (heap.deref front), .setHijackedProtocol front, loadCall (heap.deref front)] := by
  rw [taken, entered_bLoadHostData, entered_takeFront, entered_look]
  simp only [List.append_assoc, List.cons_append, List.nil_append]

theorem loadedFront_playback (front : Ref) (rest : List Ref) :
    (lib.loadedFront files heap front rest).playback =
      { (lib.playback.load files (heap.deref front)) with queue := rest }.load files
        (heap.deref front) := by
  rw [loadedFront, bLoadHostData_playback, ← look_playback files heap lib front]
  rfl

theorem loadedFront_stimuliQueue (front : Ref) (rest : List Ref) :
    (lib.loadedFront files heap front rest).stimuliQueue = rest :=
  congrArg Playback.queue (loadedFront_playback files heap lib front rest)

theorem loadedFront_hostDataOfHijackedProtocol (front : Ref) (rest : List Ref) :
    (lib.loadedFront files heap front rest).hostDataOfHijackedProtocol =
      lib.hostDataOfHijackedProtocol :=
  congrArg Playback.hijacked (loadedFront_playback files heap lib front rest)

theorem loadedFront_audioFileLengthMs {front : Ref} {path : String}
    (h : pathToAudio (heap.deref front).stimulusNr = some path) (rest : List Ref) :
    (lib.loadedFront files heap front rest).audioFileLengthMs = files.length path := by
  refine (congrArg Playback.length (loadedFront_playback files heap lib front rest)).trans ?_
  rw [Playback.load, h]
  rfl

theorem loadedFront_uiDesiredDurationMs (front : Ref) (rest : List Ref) :
    (lib.loadedFront files heap front rest).uiDesiredDurationMs =
      (heap.deref front).stimulusDuration :=
  congrArg Playback.desired (loadedFront_playback files heap lib front rest)

theorem loadedFront_dFractionOfAudioFileLeftToPlay (front : Ref) (rest : List Ref) :
    (lib.loadedFront files heap front rest).dFractionOfAudioFileLeftToPlay = 0 :=
  congrArg Playback.fraction (loadedFront_playback files heap lib front rest)

theorem entered_loadedFront (front : Ref) (rest : List Ref) :
    (lib.loadedFront files heap front rest).entered = lib.entered ++
      [loadCall (heap.deref front), .vPlayStimulusIfToBeTriggered front,
        loadCall (heap.deref front)] := by
  rw [loadedFront, entered_bLoadHostData, entered_popFront, entered_look]
  simp only [List.append_assoc, List.cons_append, List.nil_append]

variable {files heap lib}

/-- **The methods each way enters.** -/
theorem StimuliStep.entered {movementQueue : List Ref} {answers : Answers} {cs : List Call}
    {out : Store HostData × StimuliLibrary}
    (h : lib.StimuliStep files heap movementQueue answers cs out) :
    out.2.entered = lib.entered ++ cs := by
  cases h with
  | hijacked r hijacked =>
    rw [entered_continueHijackedProtocol heap _
      ((look_hostDataOfHijackedProtocol files heap lib r).trans hijacked), entered_look,
      List.append_assoc]
    rfl
  | take front rest =>
    rw [entered_continueHijackedProtocol heap _
      (taken_hostDataOfHijackedProtocol files heap lib front rest), entered_taken,
      List.append_assoc]
    rfl
  | remainder => exact (entered_playStimuli files _ _).trans (by rw [entered_updateFSystem]; rfl)
  | idle => exact lib.entered_updateFSystem.trans (List.append_nil _).symm
  | play front rest =>
    refine (entered_playStimuli files _ _).trans ?_
    rw [entered_loadedFront, List.append_assoc]
    rfl
  | pop front rest =>
    refine (entered_popFront _ front rest).trans ?_
    rw [entered_look, List.append_assoc]
    rfl

theorem calls_prefix_processStimuli (files : Files) (heap : Store HostData) (lib : StimuliLibrary)
    (movementQueue : List Ref) (answers : Answers) :
    lib.calls <+: (lib.processStimuli files heap movementQueue answers).2.calls := by
  refine List.IsPrefix.trans ?_ (prefix_processStimuli files heap lib movementQueue answers)
  refine (lib.prefix_log [.systemUpdate lib.fsystem]).trans ?_
  show lib.updateFSystem.calls <+: _
  rw [bIsStimulusToPlayAsLongAsMovementsPending]
  cases lib.updateFSystem.hostDataOfHijackedProtocol with
  | some r =>
    simp only
    split
    · exact calls_prefix_bLoadHostData files _ _
    · exact (calls_prefix_bLoadHostData files _ _).trans (prefix_log _ _)
  | none =>
    cases lib.updateFSystem.stimuliQueue with
    | cons front rest => exact calls_prefix_bLoadHostData files _ _
    | nil => exact List.prefix_rfl

/-! ### The events of each way -/

/-- The events between two libraries, the second of which went on from the first. -/
def eventsBetween (lib lib' : StimuliLibrary) : List Event :=
  eventsOf (lib'.entered.drop lib.entered.length)

theorem eventsBetween_of_entered {lib lib' : StimuliLibrary} {cs : List Call}
    (h : lib'.entered = lib.entered ++ cs) : eventsBetween lib lib' = eventsOf cs := by
  rw [eventsBetween, h, List.drop_left]

def continueEvents (heap : Store HostData) (r : Ref) (movementQueue : List Ref)
    (answers : Answers) : List Event :=
  if moving movementQueue answers then if (heap.deref r).toBeTriggerd then [.loop r] else []
  else if answers.finishedReached then [.clear, .stop]
  else []

theorem mem_continueEvents {heap : Store HostData} {r : Ref} {movementQueue : List Ref}
    {answers : Answers} {e : Event} (h : e ∈ continueEvents heap r movementQueue answers) :
    (e = .loop r ∧ (heap.deref r).toBeTriggerd = true) ∨ e = .clear ∨ e = .stop := by
  rw [continueEvents] at h
  split_ifs at h with hmoving ht
  · exact Or.inl ⟨List.mem_singleton.mp h, ht⟩
  · exact absurd h List.not_mem_nil
  · simp only [List.mem_cons, List.not_mem_nil, or_false] at h
    exact Or.inr h
  · exact absurd h List.not_mem_nil

theorem eventsOf_continueCalls (heap : Store HostData) (r : Ref) (movementQueue : List Ref)
    (answers : Answers) :
    eventsOf (continueCalls heap r movementQueue answers) =
      continueEvents heap r movementQueue answers := by
  have hloop : eventsOf (loopCalls heap r) =
      if (heap.deref r).toBeTriggerd then [.loop r] else [] := by
    rw [loopCalls]
    split_ifs <;> rfl
  rw [continueCalls, continueEvents, moving]
  cases movementQueue with
  | cons m rest => exact hloop
  | nil =>
    cases answers.pendingReached with
    | false => exact hloop
    | true => cases answers.finishedReached <;> rfl

def stopEvents (length : Nat) : List Event := if length = 0 then [.stop] else []

theorem mem_stopEvents {length : Nat} {e : Event} (h : e ∈ stopEvents length) : e = .stop := by
  rw [stopEvents] at h
  split_ifs at h
  · exact List.mem_singleton.mp h
  · exact absurd h List.not_mem_nil

theorem eventsOf_playCalls (lib : StimuliLibrary) : eventsOf lib.playCalls =
    .remainder lib.audio lib.audioFileLengthMs lib.uiDesiredDurationMs
      lib.dFractionOfAudioFileLeftToPlay :: stopEvents lib.audioFileLengthMs := by
  rw [playCalls, stopEvents]
  split_ifs <;> rfl

/-- A `playStimuli` right after the popped stimulus was loaded is its start. -/
theorem eventsOf_front (front : Ref) (d d' : HostData) (lib : StimuliLibrary) :
    eventsOf (loadCall d :: .vPlayStimulusIfToBeTriggered front :: loadCall d' :: lib.playCalls) =
      .play front lib.audio lib.audioFileLengthMs lib.uiDesiredDurationMs ::
        stopEvents lib.audioFileLengthMs := by
  rw [playCalls, stopEvents]
  split_ifs <;> rfl

end StimuliLibrary

end Orbiter.Stimuli
