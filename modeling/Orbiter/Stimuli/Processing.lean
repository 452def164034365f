import Orbiter.Stimuli.Library
import Orbiter.Toolbox.Decode

/-!
# Stimuli processing

The part of a tick that drives the stimuli: a stimulus of duration 991111 sounds
as long as movements are pending, and every other one is played from the queue or,
when a remainder is owed, once more.  The `HostData` are shared with the movement
queue and live in a store; a movement-bound stimulus is changed there.
-/

namespace Orbiter.Stimuli

open Cxx Toolbox

/-- What is answered during one tick: the motor's `reachedTarget` at each place
that asks it, and the mixer's clock. -/
structure Answers where
  movementReached : Bool
  pendingReached : Bool
  finishedReached : Bool
  clockDSP : Nat
  deriving DecidableEq

/-- The duration that stands for "as long as movements are pending". -/
def iPlayStimulusAsLongAsMovementsPending : Nat := 991111

namespace StimuliLibrary

variable (files : Files) (heap : Store HostData) (lib : StimuliLibrary)

/-- `bLoadStimuli` with the stimulus, loudness and duration of a `HostData`. -/
def bLoadHostData (hostData : HostData) : Bool × StimuliLibrary :=
  lib.bLoadStimuli files hostData.stimulusNr hostData.loudness hostData.stimulusDuration

def vPlayStimulusIfToBeTriggered (clockDSP : Nat) : StimuliLibrary :=
  match lib.stimuliQueue with
  | [] => lib
  | front :: rest =>
    let lib := lib.log [.vPlayStimulusIfToBeTriggered front]
    let lib := { lib with stimuliQueue := rest }
    let hostData := heap.deref front
    if hostData.toBeTriggerd then
      let (bIsValidStimulus, lib) := lib.bLoadHostData files hostData
      if bIsValidStimulus then lib.playStimuli files clockDSP else lib
    else lib

/-- The check, which loads what it looks at.  For a hijacked protocol that does
not load, the source runs off the end of the function. -/
def bIsStimulusToPlayAsLongAsMovementsPending : Bool × StimuliLibrary :=
  match lib.hostDataOfHijackedProtocol with
  | some hijacked =>
    let (bIsValidStimulus, lib) := lib.bLoadHostData files (heap.deref hijacked)
    if bIsValidStimulus then
      (lib.uiDesiredDurationMs == iPlayStimulusAsLongAsMovementsPending, lib)
    else (false, lib.log [.missingReturn])
  | none =>
    match lib.stimuliQueue with
    | front :: _ =>
      let (_, lib) := lib.bLoadHostData files (heap.deref front)
      (lib.uiDesiredDurationMs == iPlayStimulusAsLongAsMovementsPending, lib)
    | [] => (false, lib)

/-- The front of the queue becomes the hijacked protocol, unless there is one. -/
def setHijackedProtocol : StimuliLibrary :=
  match lib.hostDataOfHijackedProtocol, lib.stimuliQueue with
  | none, front :: rest =>
    let lib := lib.log [.setHijackedProtocol front]
    let lib := { lib with hostDataOfHijackedProtocol := some front, stimuliQueue := rest }
    (lib.bLoadHostData files (heap.deref front)).2
  | _, _ => lib

/-- The looped playback of the hijacked protocol, started once. -/
def playInfinitely : Store HostData × StimuliLibrary :=
  match lib.hostDataOfHijackedProtocol with
  | some hijacked =>
    if (heap.deref hijacked).toBeTriggerd then
      (heap.update hijacked fun hostData => { hostData with toBeTriggerd := false },
        lib.log [.playInfinitely hijacked, .setMode lib.channel .normal,
          .setLoopCount lib.channel (-1), .setPaused lib.channel false])
    else (heap, lib)
  | none => (heap, lib)

def vSetHijackedProtocolIsCompletelyProcessed : StimuliLibrary :=
  { lib.log [.vSetHijackedProtocolIsCompletelyProcessed] with hostDataOfHijackedProtocol := none }

/-- The step of a movement-bound stimulus: loop it while movements are pending,
stop it once the motor has arrived.  With a movement in the queue the motor is not
asked. -/
def continueHijackedProtocol (movementQueue : List Ref) (answers : Answers) :
    Store HostData × StimuliLibrary :=
  if movementQueue ≠ [] then lib.playInfinitely heap
  else
    let lib := lib.log [.reachedTarget answers.pendingReached]
    if answers.pendingReached = false then lib.playInfinitely heap
    else
      let lib := lib.log [.reachedTarget answers.finishedReached]
      if answers.finishedReached then
        (heap, lib.vSetHijackedProtocolIsCompletelyProcessed.stopStimuli)
      else (heap, lib)

def bAdaptStimulusParametersDueToHijacking (movementQueue : List Ref) (answers : Answers) :
    Bool × Store HostData × StimuliLibrary :=
  let (pending, lib) := lib.bIsStimulusToPlayAsLongAsMovementsPending files heap
  if pending then
    let lib := lib.setHijackedProtocol files heap
    (true, lib.continueHijackedProtocol heap movementQueue answers)
  else (false, heap, lib)

def processStimuli (movementQueue : List Ref) (answers : Answers) :
    Store HostData × StimuliLibrary :=
  let lib := lib.updateFSystem
  let (adapted, heap, lib) :=
    lib.bAdaptStimulusParametersDueToHijacking files heap movementQueue answers
  if adapted then (heap, lib)
  else if lib.bGetIsThereAFractionLeftToPlay then (heap, lib.playStimuli files answers.clockDSP)
  else if lib.stimuliQueue ≠ [] then
    (heap, lib.vPlayStimulusIfToBeTriggered files heap answers.clockDSP)
  else (heap, lib)

/-! ### What a tick calls first -/

theorem prefix_bLoadHostData (d : HostData) :
    lib.calls ++ [.bLoadStimuli d.stimulusNr d.loudness d.stimulusDuration] <+:
      (lib.bLoadHostData files d).2.calls := prefix_bLoadStimuli _ _ _ _ _

theorem calls_prefix_bLoadHostData (d : HostData) :
    lib.calls <+: (lib.bLoadHostData files d).2.calls :=
  (List.prefix_append _ _).trans (prefix_bLoadHostData files lib d)

theorem calls_prefix_playStimuli (clockDSP : Nat) :
    lib.calls <+: (lib.playStimuli files clockDSP).calls :=
  (List.prefix_append _ _).trans (prefix_playStimuli files lib clockDSP)

theorem calls_prefix_loadAndPlay (d : HostData) (clockDSP : Nat) :
    lib.calls <+: (if (lib.bLoadHostData files d).1 then
      (lib.bLoadHostData files d).2.playStimuli files clockDSP
      else (lib.bLoadHostData files d).2).calls := by
  split
  · exact (calls_prefix_bLoadHostData files lib d).trans (calls_prefix_playStimuli files _ clockDSP)
  · exact calls_prefix_bLoadHostData files lib d

theorem prefix_vPlayStimulusIfToBeTriggered (clockDSP : Nat) :
    lib.calls <+: (lib.vPlayStimulusIfToBeTriggered files heap clockDSP).calls := by
  rw [vPlayStimulusIfToBeTriggered]
  cases hq : lib.stimuliQueue with
  | nil => exact List.prefix_rfl
  | cons front rest =>
    have hpop : lib.calls <+:
        { lib.log [.vPlayStimulusIfToBeTriggered front] with stimuliQueue := rest }.calls :=
      lib.prefix_log _
    generalize hpopped : { lib.log [.vPlayStimulusIfToBeTriggered front] with
      stimuliQueue := rest } = popped at hpop
    simp only [hpopped]
    split
    · exact hpop.trans (calls_prefix_loadAndPlay files popped _ clockDSP)
    · exact hpop

theorem prefix_setHijackedProtocol : lib.calls <+: (lib.setHijackedProtocol files heap).calls := by
  rw [setHijackedProtocol]
  split
  · rename_i front rest _ _
    have htake : lib.calls <+: { lib.log [.setHijackedProtocol front] with
        hostDataOfHijackedProtocol := some front, stimuliQueue := rest }.calls := lib.prefix_log _
    generalize htaken : { lib.log [.setHijackedProtocol front] with
      hostDataOfHijackedProtocol := some front, stimuliQueue := rest } = taken at htake
    simp only [htaken]
    exact htake.trans (calls_prefix_bLoadHostData files taken _)
  · exact List.prefix_rfl

theorem prefix_playInfinitely : lib.calls <+: (lib.playInfinitely heap).2.calls := by
  rw [playInfinitely]
  split
  · split
    · exact lib.prefix_log _
    · exact List.prefix_rfl
  · exact List.prefix_rfl

theorem prefix_continueHijackedProtocol (movementQueue : List Ref) (answers : Answers) :
    lib.calls <+: (lib.continueHijackedProtocol heap movementQueue answers).2.calls := by
  rw [continueHijackedProtocol]
  split
  · exact prefix_playInfinitely heap lib
  · simp only
    split
    · exact (lib.prefix_log _).trans (prefix_playInfinitely heap _)
    · split
      · refine List.IsPrefix.trans ?_ (List.prefix_append _ _)
        exact (lib.prefix_log [.reachedTarget answers.pendingReached]).trans
          ((prefix_log _ [.reachedTarget answers.finishedReached]).trans
            (prefix_log _ [.vSetHijackedProtocolIsCompletelyProcessed]))
      · exact (lib.prefix_log _).trans (prefix_log _ _)

theorem prefix_processStimuli (movementQueue : List Ref) (answers : Answers) :
    (lib.updateFSystem.bIsStimulusToPlayAsLongAsMovementsPending files heap).2.calls <+:
      (lib.processStimuli files heap movementQueue answers).2.calls := by
  simp only [processStimuli, bAdaptStimulusParametersDueToHijacking]
  generalize lib.updateFSystem.bIsStimulusToPlayAsLongAsMovementsPending files heap = check
  obtain ⟨pending, lib⟩ := check
  cases pending with
  | true =>
    exact (prefix_setHijackedProtocol files heap lib).trans
      (prefix_continueHijackedProtocol heap _ _ _)
  | false =>
    simp only [Bool.false_eq_true, if_false]
    split
    · exact calls_prefix_playStimuli files lib _
    · split
      · exact prefix_vPlayStimulusIfToBeTriggered files heap lib _
      · exact List.prefix_rfl

/-- With a stimulus in the queue and none movement-bound, the tick first loads the one
at the front. -/
theorem prefix_processStimuli_cons {front : Ref} {rest : List Ref}
    (hj : lib.hostDataOfHijackedProtocol = none) (hq : lib.stimuliQueue = front :: rest)
    (movementQueue : List Ref) (answers : Answers) :
    lib.calls ++ [.systemUpdate lib.fsystem, .bLoadStimuli (heap.deref front).stimulusNr
        (heap.deref front).loudness (heap.deref front).stimulusDuration] <+:
      (lib.processStimuli files heap movementQueue answers).2.calls := by
  refine List.IsPrefix.trans ?_ (prefix_processStimuli files heap lib movementQueue answers)
  have hload := prefix_bLoadHostData files lib.updateFSystem (heap.deref front)
  rw [show lib.updateFSystem.calls = lib.calls ++ [.systemUpdate lib.fsystem] from rfl,
    List.append_assoc, List.singleton_append] at hload
  simpa only [bIsStimulusToPlayAsLongAsMovementsPending,
    show lib.updateFSystem.hostDataOfHijackedProtocol = none from hj,
    show lib.updateFSystem.stimuliQueue = front :: rest from hq] using hload

end StimuliLibrary

end Orbiter.Stimuli
