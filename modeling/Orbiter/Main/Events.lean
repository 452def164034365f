import Orbiter.Main.Stimuli
import Orbiter.Stimuli.Log

/-!
# Events of a run

The six ways of the stimuli step, in the tick of the program, and the events of a
step and of a whole run.

* `stimuliStep_timerFunc`: **a tick goes one of the six ways** behind its message and
  movement.
* `filter_callsBy`: the methods among the calls of a tick are those of its way.
* `library_invariant`: a law of the library that every tick keeps holds in every run.
* `tickEvents`: what each way does to the queue, the movement-bound stimulus and the
  remainder, next to its events.
* `events`: what happened to the stimuli in a run.
-/

namespace Orbiter.Main

open Cxx Toolbox Stimuli Globals

/-- The stimuli step of a tick: its way, with the methods entered. -/
def TickStep (env : Env) (g : Globals) (answers : Answers) (cs : List Call) : Prop :=
  (g.afterMessage env).stimuliLib.StimuliStep env.toFiles (g.afterMessage env).heap
    (g.timerFunc env answers).movementQueue answers cs
    ((g.timerFunc env answers).heap, (g.timerFunc env answers).stimuliLib)

variable {env : Env}

/-- **A tick goes one of the six ways.** -/
theorem stimuliStep_timerFunc {g : Globals} (hg : (machine env).Reachable g) (answers : Answers) :
    ∃ cs, TickStep env g answers cs := by
  obtain ⟨hinv, hknown⟩ :=
    (stimuliInvariant.of_reachable hg).afterMessage (known_heap hg) env
  simp only [TickStep, stimuli_timerFunc]
  exact StimuliLibrary.processStimuli_step _ _ _ hknown hinv.playable _ _

theorem calls_prefix_tick (env : Env) (g : Globals) (answers : Answers) :
    g.stimuliLib.calls <+: (g.timerFunc env answers).stimuliLib.calls := by
  have h := StimuliLibrary.calls_prefix_processStimuli env.toFiles (g.afterMessage env).heap
    (g.afterMessage env).stimuliLib (g.timerFunc env answers).movementQueue answers
  rw [← stimuli_timerFunc, (afterMessage_frame env g).calls] at h
  exact h

theorem afterMessage_entered (env : Env) (g : Globals) :
    (g.afterMessage env).stimuliLib.entered = g.stimuliLib.entered := by
  rw [StimuliLibrary.entered, StimuliLibrary.entered, (afterMessage_frame env g).calls]

theorem entered_tick {g : Globals} {answers : Answers} {cs : List Call}
    (h : TickStep env g answers cs) :
    (g.timerFunc env answers).stimuliLib.entered = g.stimuliLib.entered ++ cs := by
  rw [← afterMessage_entered env g]
  exact StimuliLibrary.StimuliStep.entered h

theorem filter_callsBy {g : Globals} {answers : Answers} {cs : List Call}
    (h : TickStep env g answers cs) :
    (callsBy env g (.tick answers)).filter Call.isMethod = cs := by
  obtain ⟨new, hnew⟩ := calls_prefix_tick env g answers
  have hcalls : callsBy env g (.tick answers) = new := by
    show (g.timerFunc env answers).stimuliLib.calls.drop _ = _
    rw [← hnew, List.drop_left]
  have hentered : g.stimuliLib.entered ++ new.filter Call.isMethod =
      g.stimuliLib.entered ++ cs := by
    rw [← entered_tick h, StimuliLibrary.entered, StimuliLibrary.entered, ← hnew,
      List.filter_append]
  rw [hcalls, List.append_cancel_left hentered]

theorem mem_callsBy_iff {g : Globals} {answers : Answers} {cs : List Call}
    (h : TickStep env g answers cs) {c : Call} (hc : c.isMethod = true) :
    c ∈ callsBy env g (.tick answers) ↔ c ∈ cs := by
  rw [← filter_callsBy h, List.mem_filter]
  simp only [hc, and_true]

/-! ### Events -/

def eventsBy (env : Env) (g : Globals) (a : Act) : List Event :=
  g.stimuliLib.eventsBetween (step env g a).stimuliLib

def eventsFrom (env : Env) (g : Globals) (acts : List Act) : List Event :=
  ((machine env).stepsFrom g acts).flatMap fun x => eventsBy env x.1 x.2

def events (env : Env) (acts : List Act) : List Event := eventsFrom env Globals.init acts

theorem events_concat (env : Env) (acts : List Act) (a : Act) :
    events env (acts ++ [a]) = events env acts ++ eventsBy env ((machine env).run acts) a := by
  rw [events, eventsFrom, Machine.stepsFrom_append, List.flatMap_append]
  exact congrArg _ (List.append_nil _)

theorem eventsBy_tick {g : Globals} {answers : Answers} {cs : List Call}
    (h : TickStep env g answers cs) : eventsBy env g (.tick answers) = eventsOf cs :=
  StimuliLibrary.eventsBetween_of_entered (entered_tick h)

theorem eventsBetween_self (lib : StimuliLibrary) : lib.eventsBetween lib = [] :=
  StimuliLibrary.eventsBetween_of_entered (List.append_nil _).symm

/-! ### What a tick does -/

/-- The movement-bound stimulus at `r` behind a tick: it ends, or it goes on and, while
something moves, is no longer to be started. -/
structure BoundAfter (env : Env) (g : Globals) (answers : Answers) (r : Ref) : Prop where
  hijacked : (g.timerFunc env answers).stimuliLib.hostDataOfHijackedProtocol =
    if StimuliLibrary.moving (g.timerFunc env answers).movementQueue answers ||
        !answers.finishedReached then some r else none
  silent : StimuliLibrary.moving (g.timerFunc env answers).movementQueue answers = true →
    ((g.timerFunc env answers).heap.deref r).toBeTriggerd = false
  heap : StimuliLibrary.moving (g.timerFunc env answers).movementQueue answers = false →
    (g.timerFunc env answers).heap = (g.afterMessage env).heap
  fraction : (g.timerFunc env answers).stimuliLib.dFractionOfAudioFileLeftToPlay = 0

/-- What is left to play once `playStimuli` has been called for a stimulus: the rest of its
duration, as it divided it. -/
structure LeftToPlay (files : Files) (lib : StimuliLibrary) (audio : Option Sound)
    (length desired : Nat) : Prop where
  audio : lib.audio = audio
  audioFileLengthMs : lib.audioFileLengthMs = length
  longer : length < desired
  uiDesiredDurationMs : lib.uiDesiredDurationMs = files.double.rest desired length
  dFractionOfAudioFileLeftToPlay :
    lib.dFractionOfAudioFileLeftToPlay = files.double.fraction desired length
  ne_zero : length ≠ 0

/-- **What a tick does to the stimuli**, with its events. -/
inductive TickEvents (env : Env) (g : Globals) (answers : Answers) : List Event → Prop
  | hijacked (r : Ref) (progress : g.stimuliLib.hostDataOfHijackedProtocol = some r)
      (queue : (g.timerFunc env answers).stimuliLib.stimuliQueue =
        (g.afterMessage env).stimuliLib.stimuliQueue)
      (after : BoundAfter env g answers r) :
      TickEvents env g answers (StimuliLibrary.continueEvents (g.afterMessage env).heap r
        (g.timerFunc env answers).movementQueue answers)
  | take (front : Ref) (free : g.stimuliLib.hostDataOfHijackedProtocol = none)
      (queue : (g.afterMessage env).stimuliLib.stimuliQueue =
        front :: (g.timerFunc env answers).stimuliLib.stimuliQueue)
      (after : BoundAfter env g answers front) :
      TickEvents env g answers (.take front :: StimuliLibrary.continueEvents
        (g.afterMessage env).heap front (g.timerFunc env answers).movementQueue answers)
  | remainder (queue : (g.timerFunc env answers).stimuliLib.stimuliQueue =
        (g.afterMessage env).stimuliLib.stimuliQueue)
      (free : (g.timerFunc env answers).stimuliLib.hostDataOfHijackedProtocol = none)
      (owed : g.stimuliLib.bGetIsThereAFractionLeftToPlay = true)
      (fraction : (g.timerFunc env answers).stimuliLib.dFractionOfAudioFileLeftToPlay = 0) :
      TickEvents env g answers [.remainder g.stimuliLib.audio g.stimuliLib.audioFileLengthMs
        g.stimuliLib.uiDesiredDurationMs g.stimuliLib.dFractionOfAudioFileLeftToPlay]
  | idle (lib : (g.timerFunc env answers).stimuliLib =
        (g.afterMessage env).stimuliLib.updateFSystem)
      (free : g.stimuliLib.hostDataOfHijackedProtocol = none) : TickEvents env g answers []
  | play (front : Ref) (audio : Option Sound) (length desired : Nat)
      (queue : (g.afterMessage env).stimuliLib.stimuliQueue =
        front :: (g.timerFunc env answers).stimuliLib.stimuliQueue)
      (free : (g.timerFunc env answers).stimuliLib.hostDataOfHijackedProtocol = none)
      (triggered : ((g.afterMessage env).heap.deref front).toBeTriggerd = true)
      (sound : ∃ sound, audio = some sound ∧
        pathToAudio ((g.afterMessage env).heap.deref front).stimulusNr = some sound.path)
      (duration : desired = ((g.afterMessage env).heap.deref front).stimulusDuration)
      (left : (g.timerFunc env answers).stimuliLib.dFractionOfAudioFileLeftToPlay ≠ 0 →
        LeftToPlay env.toFiles (g.timerFunc env answers).stimuliLib audio length desired) :
      TickEvents env g answers
        (.play front audio length desired :: StimuliLibrary.stopEvents length)
  | pop (front : Ref)
      (queue : (g.afterMessage env).stimuliLib.stimuliQueue =
        front :: (g.timerFunc env answers).stimuliLib.stimuliQueue)
      (free : (g.timerFunc env answers).stimuliLib.hostDataOfHijackedProtocol = none)
      (fraction : (g.timerFunc env answers).stimuliLib.dFractionOfAudioFileLeftToPlay = 0) :
      TickEvents env g answers [.pop front]

theorem boundAfter {g : Globals} {answers : Answers} {lib : StimuliLibrary} {r : Ref}
    (hout : ((g.timerFunc env answers).heap, (g.timerFunc env answers).stimuliLib) =
      lib.continueHijackedProtocol (g.afterMessage env).heap (g.timerFunc env answers).movementQueue
        answers)
    (hj : lib.playback.hijacked = some r) (hf : lib.playback.fraction = 0) :
    BoundAfter env g answers r := by
  have h := lib.continueHijackedProtocol_playback (g.afterMessage env).heap
    (g.timerFunc env answers).movementQueue answers
  rw [← hout, Playback.continueBound] at h
  have hhijacked := congrArg (fun out => out.2.hijacked) h
  have hfraction := congrArg (fun out => out.2.fraction) h
  have hheap := congrArg Prod.fst h
  refine ⟨hhijacked.trans ?_, ?_, ?_, hfraction.trans ?_⟩
  · cases StimuliLibrary.moving (g.timerFunc env answers).movementQueue answers <;>
      cases answers.finishedReached <;> first | exact hj | rfl
  · intro hmoving
    rw [if_pos hmoving] at hheap
    rw [show (g.timerFunc env answers).heap = _ from hheap]
    exact Playback.silence_toBeTriggerd _ hj
  · intro hmoving
    rw [if_neg (by simp [hmoving])] at hheap
    exact hheap
  · cases StimuliLibrary.moving (g.timerFunc env answers).movementQueue answers <;>
      cases answers.finishedReached <;> exact hf

theorem continueHijackedProtocol_stimuliQueue (heap : Store HostData) (lib : StimuliLibrary)
    (movementQueue : List Ref) (answers : Answers) :
    (lib.continueHijackedProtocol heap movementQueue answers).2.stimuliQueue =
      lib.stimuliQueue := by
  have h := congrArg (fun out => out.2.queue)
    (lib.continueHijackedProtocol_playback heap movementQueue answers)
  refine h.trans ?_
  rw [Playback.continueBound]
  split_ifs <;> rfl

/-- What `playStimuli` leaves to play: the rest of a duration longer than the sound. -/
theorem leftToPlay (files : Files) (lib : StimuliLibrary)
    (hf : lib.dFractionOfAudioFileLeftToPlay = 0) {clockDSP : Nat}
    (h : (lib.playStimuli files clockDSP).dFractionOfAudioFileLeftToPlay ≠ 0) :
    LeftToPlay files (lib.playStimuli files clockDSP) lib.audio lib.audioFileLengthMs
      lib.uiDesiredDurationMs := by
  have hplayback := lib.playStimuli_playback files clockDSP
  have hfraction : (lib.playStimuli files clockDSP).dFractionOfAudioFileLeftToPlay =
      (lib.playback.play files).fraction := congrArg Playback.fraction hplayback
  rw [hfraction, Playback.play] at h
  rw [Playback.play] at hplayback
  split_ifs at h hplayback with h0 hlt hgt
  · exact absurd hf h
  · exact ⟨lib.playStimuli_audio files clockDSP, congrArg Playback.length hplayback, hlt,
      congrArg Playback.desired hplayback, congrArg Playback.fraction hplayback, h0⟩
  · exact absurd rfl h
  · exact absurd hf h

theorem afterMessage_stimuliLib (env : Env) (g : Globals) :
    ∃ queue, (g.afterMessage env).stimuliLib = { g.stimuliLib with stimuliQueue := queue } := by
  rcases playback_afterMessage env g with ⟨-, -, hlib⟩ | ⟨-, -, hlib⟩
  · exact ⟨g.stimuliLib.stimuliQueue, hlib⟩
  · exact ⟨_, hlib⟩

/-- A law of the library that does not look at the queue holds behind the message. -/
theorem library_afterMessage {P : StimuliLibrary → Prop}
    (hqueue : ∀ lib queue, P lib → P { lib with stimuliQueue := queue }) (env : Env) {g : Globals}
    (h : P g.stimuliLib) : P (g.afterMessage env).stimuliLib := by
  obtain ⟨queue, hlib⟩ := afterMessage_stimuliLib env g
  rw [hlib]
  exact hqueue _ queue h

/-- **Such a law holds in every reachable state when every tick keeps it.** -/
theorem library_invariant {P : StimuliLibrary → Prop} (hinit : P StimuliLibrary.init)
    (hqueue : ∀ lib queue, P lib → P { lib with stimuliQueue := queue })
    (htick : ∀ g answers, (machine env).Reachable g → P (g.afterMessage env).stimuliLib →
      P (g.timerFunc env answers).stimuliLib) :
    (machine env).Invariant fun g => P g.stimuliLib where
  init := hinit
  step := by
    intro g a hg h
    cases a with
    | tcpPush msg => exact h
    | irPush code => exact h
    | tick answers => exact htick g answers hg (library_afterMessage hqueue env h)

/-- **A law of the library that only a tick can break holds behind a run exactly when every
tick met the side condition.** -/
theorem library_iff_steps {P : StimuliLibrary → Prop} {G : Globals → Act → Prop}
    (hinit : P StimuliLibrary.init) (htcp : ∀ g msg, G g (.tcpPush msg))
    (hir : ∀ g code, G g (.irPush code))
    (htick : ∀ g answers, (machine env).Reachable g →
      (P (g.timerFunc env answers).stimuliLib ↔ P g.stimuliLib ∧ G g (.tick answers)))
    (acts : List Act) :
    P ((machine env).run acts).stimuliLib ↔ ∀ x ∈ (machine env).steps acts, G x.1 x.2 := by
  refine Machine.run_iff_steps (m := machine env) (P := fun g => P g.stimuliLib) hinit ?_ acts
  intro g a hg
  cases a with
  | tcpPush msg => exact (and_iff_left (htcp g msg)).symm
  | irPush code => exact (and_iff_left (hir g code)).symm
  | tick answers => exact htick g answers hg

/-- **The log of every run is orderly.** -/
theorem logged_reachable (env : Env) : (machine env).Invariant fun g => g.stimuliLib.Logged := by
  refine library_invariant ?_ (fun _ _ h => h) ?_
  · exact Orderly.append .nil (by decide)
  · intro g answers hg h
    obtain ⟨cs, hstep⟩ := stimuliStep_timerFunc hg answers
    exact StimuliLibrary.StimuliStep.orderly h hstep

/-! ### The six ways, with their events -/

section

variable {g : Globals} {answers : Answers}

theorem tickEvents_hijacked {r : Ref}
    (hj : (g.afterMessage env).stimuliLib.hostDataOfHijackedProtocol = some r)
    (hout : ((g.timerFunc env answers).heap, (g.timerFunc env answers).stimuliLib) =
      ((g.afterMessage env).stimuliLib.look env.toFiles (g.afterMessage env).heap
        r).continueHijackedProtocol (g.afterMessage env).heap
          (g.timerFunc env answers).movementQueue answers) :
    TickEvents env g answers (eventsOf (loadCall ((g.afterMessage env).heap.deref r) ::
      StimuliLibrary.continueCalls (g.afterMessage env).heap r
        (g.timerFunc env answers).movementQueue answers)) := by
  have hplayback := StimuliLibrary.look_playback env.toFiles (g.afterMessage env).heap
    (g.afterMessage env).stimuliLib r
  have hevents : eventsOf (loadCall ((g.afterMessage env).heap.deref r) ::
      StimuliLibrary.continueCalls (g.afterMessage env).heap r
        (g.timerFunc env answers).movementQueue answers) = StimuliLibrary.continueEvents
          (g.afterMessage env).heap r (g.timerFunc env answers).movementQueue answers :=
    StimuliLibrary.eventsOf_continueCalls _ _ _ _
  rw [hevents]
  refine .hijacked r ((afterMessage_frame env g).hostDataOfHijackedProtocol.symm.trans hj) ?_
    (boundAfter hout ?_ ?_)
  · rw [show (g.timerFunc env answers).stimuliLib = _ from congrArg Prod.snd hout,
      continueHijackedProtocol_stimuliQueue, StimuliLibrary.look_stimuliQueue]
  · rw [hplayback]
    exact hj
  · rw [hplayback]
    rfl

theorem tickEvents_take {front : Ref} {rest : List Ref}
    (free : (g.afterMessage env).stimuliLib.hostDataOfHijackedProtocol = none)
    (queue : (g.afterMessage env).stimuliLib.stimuliQueue = front :: rest)
    (hout : ((g.timerFunc env answers).heap, (g.timerFunc env answers).stimuliLib) =
      ((g.afterMessage env).stimuliLib.taken env.toFiles (g.afterMessage env).heap front
        rest).continueHijackedProtocol (g.afterMessage env).heap
          (g.timerFunc env answers).movementQueue answers) :
    TickEvents env g answers (eventsOf (loadCall ((g.afterMessage env).heap.deref front) ::
      .setHijackedProtocol front :: loadCall ((g.afterMessage env).heap.deref front) ::
      StimuliLibrary.continueCalls (g.afterMessage env).heap front
        (g.timerFunc env answers).movementQueue answers)) := by
  have hplayback := StimuliLibrary.taken_playback env.toFiles (g.afterMessage env).heap
    (g.afterMessage env).stimuliLib front rest
  have hevents : eventsOf (loadCall ((g.afterMessage env).heap.deref front) ::
      .setHijackedProtocol front :: loadCall ((g.afterMessage env).heap.deref front) ::
      StimuliLibrary.continueCalls (g.afterMessage env).heap front
        (g.timerFunc env answers).movementQueue answers) =
        .take front :: StimuliLibrary.continueEvents (g.afterMessage env).heap front
          (g.timerFunc env answers).movementQueue answers :=
    congrArg (List.cons (Event.take front)) (StimuliLibrary.eventsOf_continueCalls _ _ _ _)
  rw [hevents]
  refine .take front ((afterMessage_frame env g).hostDataOfHijackedProtocol.symm.trans free) ?_
    (boundAfter hout ?_ ?_)
  · rw [show (g.timerFunc env answers).stimuliLib = _ from congrArg Prod.snd hout,
      continueHijackedProtocol_stimuliQueue, queue]
    exact congrArg (List.cons front) (congrArg Playback.queue hplayback).symm
  · rw [hplayback]
    rfl
  · rw [hplayback]
    rfl

theorem tickEvents_remainder (howes : (g.afterMessage env).stimuliLib.playback.Owes)
    (free : (g.afterMessage env).stimuliLib.hostDataOfHijackedProtocol = none)
    (owed : (g.afterMessage env).stimuliLib.bGetIsThereAFractionLeftToPlay = true)
    (hlib : (g.timerFunc env answers).stimuliLib =
      (g.afterMessage env).stimuliLib.updateFSystem.playStimuli env.toFiles answers.clockDSP) :
    TickEvents env g answers (eventsOf (g.afterMessage env).stimuliLib.playCalls) := by
  obtain ⟨newQueue, hmsg⟩ := afterMessage_stimuliLib env g
  obtain ⟨hne, hplay⟩ := howes.play_eq env.toFiles (StimuliLibrary.fraction_ne_zero owed)
  have hplayback := StimuliLibrary.playStimuli_playback env.toFiles
    (g.afterMessage env).stimuliLib.updateFSystem answers.clockDSP
  rw [StimuliLibrary.updateFSystem_playback, hplay] at hplayback
  have hlength : (g.afterMessage env).stimuliLib.audioFileLengthMs ≠ 0 := hne
  rw [StimuliLibrary.eventsOf_playCalls, StimuliLibrary.stopEvents, if_neg hlength, hmsg]
  rw [hmsg] at owed
  refine .remainder ?_ ?_ owed ?_
  · rw [hlib, StimuliLibrary.playStimuli_stimuliQueue, StimuliLibrary.updateFSystem_stimuliQueue]
  · rw [hlib, StimuliLibrary.playStimuli_hostDataOfHijackedProtocol,
      StimuliLibrary.updateFSystem_hostDataOfHijackedProtocol]
    exact free
  · rw [hlib]
    exact congrArg Playback.fraction hplayback

theorem tickEvents_play {front : Ref} {rest : List Ref}
    (free : (g.afterMessage env).stimuliLib.hostDataOfHijackedProtocol = none)
    (queue : (g.afterMessage env).stimuliLib.stimuliQueue = front :: rest)
    (triggered : ((g.afterMessage env).heap.deref front).toBeTriggerd = true)
    (known : (pathToAudio ((g.afterMessage env).heap.deref front).stimulusNr).isSome = true)
    (hlib : (g.timerFunc env answers).stimuliLib =
      ((g.afterMessage env).stimuliLib.loadedFront env.toFiles (g.afterMessage env).heap front
        rest).playStimuli env.toFiles answers.clockDSP) :
    TickEvents env g answers (eventsOf (loadCall ((g.afterMessage env).heap.deref front) ::
      .vPlayStimulusIfToBeTriggered front :: loadCall ((g.afterMessage env).heap.deref front) ::
      ((g.afterMessage env).stimuliLib.loadedFront env.toFiles (g.afterMessage env).heap front
        rest).playCalls)) := by
  obtain ⟨path, hpath⟩ := Option.isSome_iff_exists.mp known
  obtain ⟨sound, haudio, -, hsound⟩ := StimuliLibrary.bLoadHostData_audio env.toFiles
    (((g.afterMessage env).stimuliLib.look env.toFiles (g.afterMessage env).heap front).popFront
      front rest) hpath
  rw [StimuliLibrary.eventsOf_front]
  refine .play front _ _ _ ?_ ?_ triggered ⟨sound, haudio, by rw [hsound, hpath]⟩
    (StimuliLibrary.loadedFront_uiDesiredDurationMs _ _ _ _ _) ?_
  · rw [hlib, StimuliLibrary.playStimuli_stimuliQueue, StimuliLibrary.loadedFront_stimuliQueue]
    exact queue
  · rw [hlib, StimuliLibrary.playStimuli_hostDataOfHijackedProtocol,
      StimuliLibrary.loadedFront_hostDataOfHijackedProtocol]
    exact free
  · rw [hlib]
    exact leftToPlay _ _ (StimuliLibrary.loadedFront_dFractionOfAudioFileLeftToPlay _ _ _ _ _)

theorem tickEvents_pop {front : Ref} {rest : List Ref}
    (free : (g.afterMessage env).stimuliLib.hostDataOfHijackedProtocol = none)
    (queue : (g.afterMessage env).stimuliLib.stimuliQueue = front :: rest)
    (hlib : (g.timerFunc env answers).stimuliLib =
      ((g.afterMessage env).stimuliLib.look env.toFiles (g.afterMessage env).heap front).popFront
        front rest) :
    TickEvents env g answers [.pop front] := by
  have hplayback := StimuliLibrary.look_playback env.toFiles (g.afterMessage env).heap
    (g.afterMessage env).stimuliLib front
  refine .pop front ?_ ?_ ?_
  · rw [hlib, queue]
    rfl
  · rw [hlib]
    exact (congrArg Playback.hijacked hplayback).trans free
  · rw [hlib]
    exact congrArg Playback.fraction hplayback

end

theorem tickEvents {g : Globals} (hg : (machine env).Reachable g) (answers : Answers) :
    TickEvents env g answers (eventsBy env g (.tick answers)) := by
  obtain ⟨hinv, -⟩ := (stimuliInvariant.of_reachable hg).afterMessage (known_heap hg) env
  obtain ⟨cs, hstep⟩ := stimuliStep_timerFunc hg answers
  rw [eventsBy_tick hstep]
  rw [TickStep] at hstep
  generalize hout : ((g.timerFunc env answers).heap, (g.timerFunc env answers).stimuliLib) = out
    at hstep
  have hlib : (g.timerFunc env answers).stimuliLib = out.2 := congrArg Prod.snd hout
  cases hstep with
  | hijacked r hj bound known => exact tickEvents_hijacked hj hout
  | take front rest free queue bound known => exact tickEvents_take free queue hout
  | remainder free queue owed => exact tickEvents_remainder hinv.owes free owed hlib
  | idle free queue owed =>
    exact .idle hlib ((afterMessage_frame env g).hostDataOfHijackedProtocol.symm.trans free)
  | play front rest free queue unbound triggered known =>
    exact tickEvents_play free queue triggered known hlib
  | pop front rest free queue unbound untriggered => exact tickEvents_pop free queue hlib

@[simp] theorem eventsBy_tcpPush (env : Env) (g : Globals) (msg : Str) :
    eventsBy env g (.tcpPush msg) = [] := eventsBetween_self g.stimuliLib

@[simp] theorem eventsBy_irPush (env : Env) (g : Globals) (code : Str) :
    eventsBy env g (.irPush code) = [] := eventsBetween_self g.stimuliLib

/-- A law of the state and the events so far that every step keeps. -/
theorem events_induction {P : Globals → List Event → Prop} (hinit : P Globals.init [])
    (htcp : ∀ g evs msg, P g evs → P ((machine env).step g (.tcpPush msg)) evs)
    (hir : ∀ g evs code, P g evs → P ((machine env).step g (.irPush code)) evs)
    (htick : ∀ g evs answers, (machine env).Reachable g → P g evs →
      P (g.timerFunc env answers) (evs ++ eventsBy env g (.tick answers)))
    (acts : List Act) : P ((machine env).run acts) (events env acts) := by
  induction acts using List.reverseRecOn with
  | nil => exact hinit
  | append_singleton acts a ih =>
    have hg := (machine env).reachable_run acts
    rw [events_concat, Machine.run_concat]
    cases a with
    | tcpPush msg =>
      rw [eventsBy_tcpPush, List.append_nil]
      exact htcp _ _ msg ih
    | irPush code =>
      rw [eventsBy_irPush, List.append_nil]
      exact hir _ _ code ih
    | tick answers => exact htick _ _ answers hg ih

end Orbiter.Main
