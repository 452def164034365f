import Orbiter.Stimuli.Events

/-!
# What is heard

The events of a tick with the sounds named by their files: which stimulus starts,
loops or stops, and which remainder is played.  They depend on the `Playback` and on
the file of the sound loaded last, and on nothing else of the library.

* `heard_processStimuli`: **what is heard is decided by the `Playback`**.
* `Without`: one playback is another without one of its waiting stimuli.
* `Without.tick`: **a stimulus that is not to be triggered is not heard**, unless a tick
  finds it at the front with something to disturb.
-/

namespace Orbiter.Stimuli

open Cxx Toolbox

inductive Heard
  | start (front : Ref) (path : Option String) (length desired : Nat)
  | loop (hijacked : Ref)
  | remainder (path : Option String) (length desired : Nat) (fraction : ℚ)
  | stop
  deriving DecidableEq

def heard : Event → Option Heard
  | .play front audio length desired => some (.start front (audio.map Sound.path) length desired)
  | .loop hijacked => some (.loop hijacked)
  | .remainder audio length desired fraction =>
    some (.remainder (audio.map Sound.path) length desired fraction)
  | .stop => some .stop
  | _ => none

namespace Playback

variable (files : Files) (heap : Store HostData) (p : Playback)

def heardBound (r : Ref) (moving finished : Bool) : List Heard :=
  if moving then if (heap.deref r).toBeTriggerd then [.loop r] else []
  else if finished then [.stop]
  else []

def heardStop (length : Nat) : List Heard := if length = 0 then [.stop] else []

/-- What is heard of the front of the queue when it is popped. -/
def heardFront (r : Ref) : List Heard :=
  if (heap.deref r).toBeTriggerd then
    .start r (pathToAudio (heap.deref r).stimulusNr) (p.load files (heap.deref r)).length
        (heap.deref r).stimulusDuration :: heardStop (p.load files (heap.deref r)).length
  else []

/-- What is heard in a tick; `path` is the file of the sound loaded last. -/
def heard (path : Option String) (moving finished : Bool) : List Heard :=
  match p.hijacked with
  | some r => heardBound heap r moving finished
  | none =>
    match p.queue with
    | [] =>
      if 0.0001 < p.fraction then
        .remainder path p.length p.desired p.fraction :: heardStop p.length
      else []
    | front :: _ =>
      if (heap.deref front).stimulusDuration = iPlayStimulusAsLongAsMovementsPending then
        heardBound heap front moving finished
      else p.heardFront files heap front

def tickPath (path : Option String) : Option String :=
  p.candidate.elim path fun r => (pathToAudio (heap.deref r).stimulusNr).or path

end Playback

namespace StimuliLibrary

variable (files : Files) (heap : Store HostData) (lib : StimuliLibrary)

/-- The file of the sound loaded last. -/
def audioPath : Option String := lib.audio.map Sound.path

theorem log_audioPath (cs : List Call) : (lib.log cs).audioPath = lib.audioPath := rfl

theorem vSetHijackedProtocolIsCompletelyProcessed_audioPath :
    lib.vSetHijackedProtocolIsCompletelyProcessed.audioPath = lib.audioPath := rfl

theorem stopStimuli_audioPath : lib.stopStimuli.audioPath = lib.audioPath := rfl

theorem popFront_audioPath (front : Ref) (rest : List Ref) :
    (lib.popFront front rest).audioPath = lib.audioPath := rfl

theorem takeFront_audioPath (front : Ref) (rest : List Ref) :
    (lib.takeFront front rest).audioPath = lib.audioPath := rfl

theorem playStimuli_audioPath (clockDSP : Nat) :
    (lib.playStimuli files clockDSP).audioPath = lib.audioPath := by
  rw [audioPath, playStimuli_audio, audioPath]

theorem bLoadHostData_audioPath (d : HostData) :
    (lib.bLoadHostData files d).2.audioPath = (pathToAudio d.stimulusNr).or lib.audioPath := by
  cases hpath : pathToAudio d.stimulusNr with
  | some path =>
    obtain ⟨sound, haudio, -, hsound⟩ := lib.bLoadHostData_audio files hpath
    rw [audioPath, haudio, Option.map_some, hsound, Option.some_or]
  | none =>
    have haudio : (lib.bLoadHostData files d).2.audio = lib.audio := by
      rw [bLoadHostData, bLoadStimuli, log_audio, switchStimulus, hpath]
      show (startOscillator _ _).audio = lib.audio
      rw [startOscillator]
      split <;> rfl
    rw [audioPath, haudio, Option.none_or]
    rfl

theorem look_audioPath (r : Ref) : (lib.look files heap r).audioPath =
    (pathToAudio (heap.deref r).stimulusNr).or lib.audioPath := bLoadHostData_audioPath files _ _

theorem continueHijackedProtocol_audioPath (movementQueue : List Ref) (answers : Answers) :
    (lib.continueHijackedProtocol heap movementQueue answers).2.audioPath = lib.audioPath := by
  have hplay (lib : StimuliLibrary) : (lib.playInfinitely heap).2.audioPath = lib.audioPath := by
    rw [playInfinitely]
    split
    · split <;> rfl
    · rfl
  rw [continueHijackedProtocol]
  split_ifs
  · exact hplay lib
  · exact hplay _
  · simp only [stopStimuli_audioPath, vSetHijackedProtocolIsCompletelyProcessed_audioPath,
      log_audioPath]
  · simp only [log_audioPath]

/-- Loading a stimulus twice is loading it once. -/
theorem or_or_self {α : Type*} (a b : Option α) : a.or (a.or b) = a.or b := by
  cases a <;> rfl

theorem heard_continueEvents (r : Ref) (movementQueue : List Ref) (answers : Answers) :
    (continueEvents heap r movementQueue answers).filterMap heard =
      Playback.heardBound heap r (moving movementQueue answers) answers.finishedReached := by
  rw [continueEvents, Playback.heardBound]
  split_ifs <;> rfl

theorem heard_stopEvents (length : Nat) :
    (stopEvents length).filterMap heard = Playback.heardStop length := by
  rw [stopEvents, Playback.heardStop]
  split_ifs <;> rfl

theorem loadedFront_audioPath (front : Ref) (rest : List Ref) :
    (lib.loadedFront files heap front rest).audioPath =
      (pathToAudio (heap.deref front).stimulusNr).or lib.audioPath := by
  rw [loadedFront, bLoadHostData_audioPath, popFront_audioPath, look_audioPath, or_or_self]

section Ways

variable {files heap lib}
variable {movementQueue : List Ref} {answers : Answers} {cs : List Call}
variable {out : Store HostData × StimuliLibrary}

theorem StimuliStep.heard_eq (hstep : lib.StimuliStep files heap movementQueue answers cs out) :
    (eventsOf cs).filterMap heard = lib.playback.heard files heap lib.audioPath
      (moving movementQueue answers) answers.finishedReached := by
  cases hstep with
  | hijacked r hj bound known =>
    have hj' : lib.playback.hijacked = some r := hj
    simp only [Playback.heard, hj']
    rw [← heard_continueEvents, ← eventsOf_continueCalls]
    rfl
  | take front rest free queue bound known =>
    have hj' : lib.playback.hijacked = none := free
    have hq' : lib.playback.queue = front :: rest := queue
    simp only [Playback.heard, hj', hq', bound, if_true]
    rw [← heard_continueEvents, ← eventsOf_continueCalls]
    rfl
  | remainder free queue owed =>
    have hj' : lib.playback.hijacked = none := free
    have hq' : lib.playback.queue = [] := queue
    rw [eventsOf_playCalls]
    simp only [Playback.heard, hj', hq']
    rw [if_pos (show 0.0001 < lib.playback.fraction from of_decide_eq_true owed)]
    exact congrArg (List.cons _) (heard_stopEvents _)
  | idle free queue owed =>
    have hj' : lib.playback.hijacked = none := free
    have hq' : lib.playback.queue = [] := queue
    simp only [Playback.heard, hj', hq']
    rw [if_neg (show ¬ 0.0001 < lib.playback.fraction from of_decide_eq_false owed)]
    rfl
  | play front rest free queue unbound triggered known =>
    have hj' : lib.playback.hijacked = none := free
    have hq' : lib.playback.queue = front :: rest := queue
    obtain ⟨path, hpath⟩ := Option.isSome_iff_exists.mp known
    have hlength : (lib.loadedFront files heap front rest).audioFileLengthMs =
        (lib.playback.load files (heap.deref front)).length := by
      rw [loadedFront_audioFileLengthMs files heap lib hpath, Playback.load, hpath]
      rfl
    have hsound : (lib.loadedFront files heap front rest).audioPath =
        pathToAudio (heap.deref front).stimulusNr := by
      rw [loadedFront_audioPath, hpath, Option.some_or]
    rw [eventsOf_front]
    simp only [Playback.heard, hj', hq', if_neg unbound]
    rw [Playback.heardFront, if_pos triggered, ← hlength, ← hsound, ← heard_stopEvents,
      ← loadedFront_uiDesiredDurationMs files heap lib front rest]
    rfl
  | pop front rest free queue unbound untriggered =>
    have hj' : lib.playback.hijacked = none := free
    have hq' : lib.playback.queue = front :: rest := queue
    simp only [Playback.heard, hj', hq', if_neg unbound]
    rw [Playback.heardFront, if_neg (by simp [untriggered])]
    rfl

theorem StimuliStep.audioPath_eq
    (hstep : lib.StimuliStep files heap movementQueue answers cs out) :
    out.2.audioPath = lib.playback.tickPath heap lib.audioPath := by
  cases hstep with
  | hijacked r hj =>
    have hj' : lib.playback.hijacked = some r := hj
    rw [continueHijackedProtocol_audioPath, look_audioPath, Playback.tickPath,
      Playback.candidate, hj']
    rfl
  | take front rest free queue =>
    have hq' : lib.playback.queue = front :: rest := queue
    rw [continueHijackedProtocol_audioPath, taken, bLoadHostData_audioPath, Playback.tickPath,
      Playback.candidate_cons free hq', Option.elim_some, takeFront_audioPath, look_audioPath,
      or_or_self]
  | remainder free queue =>
    have hj' : lib.playback.hijacked = none := free
    have hq' : lib.playback.queue = [] := queue
    rw [playStimuli_audioPath, Playback.tickPath, Playback.candidate, hj', hq']
    rfl
  | idle free queue =>
    have hj' : lib.playback.hijacked = none := free
    have hq' : lib.playback.queue = [] := queue
    rw [Playback.tickPath, Playback.candidate, hj', hq']
    rfl
  | play front rest free queue =>
    have hq' : lib.playback.queue = front :: rest := queue
    rw [playStimuli_audioPath, loadedFront_audioPath, Playback.tickPath,
      Playback.candidate_cons free hq', Option.elim_some]
  | pop front rest free queue =>
    have hq' : lib.playback.queue = front :: rest := queue
    rw [popFront_audioPath, look_audioPath, Playback.tickPath, Playback.candidate_cons free hq',
      Option.elim_some]

end Ways

/-- **What is heard is decided by the `Playback`.** -/
theorem heard_processStimuli (hk : Known heap) (hp : lib.playback.Playable heap)
    (movementQueue : List Ref) (answers : Answers) :
    (lib.eventsBetween (lib.processStimuli files heap movementQueue answers).2).filterMap heard =
        lib.playback.heard files heap lib.audioPath (moving movementQueue answers)
          answers.finishedReached ∧
      (lib.processStimuli files heap movementQueue answers).2.audioPath =
        lib.playback.tickPath heap lib.audioPath := by
  obtain ⟨cs, hstep⟩ := lib.processStimuli_step files heap hk hp movementQueue answers
  rw [eventsBetween_of_entered hstep.entered]
  exact ⟨hstep.heard_eq, hstep.audioPath_eq⟩

end StimuliLibrary

/-! ### Two playbacks, one without a stimulus -/

def Playback.Owed (p : Playback) : Prop := 0.0001 < p.fraction

/-- The same is left to play, of the same sound. -/
structure SameLeft (p p' : Playback) (path path' : Option String) : Prop where
  length : p'.length = p.length
  desired : p'.desired = p.desired
  fraction : p'.fraction = p.fraction
  path : path' = path

/-- The playback `p'` is `p` without the stimulus `r` in the queue.  What is left to play
is the same, or nothing is owed in either. -/
structure Without (r : Ref) (p p' : Playback) (path path' : Option String) : Prop where
  hijacked : p'.hijacked = p.hijacked
  queue : p'.queue = p.queue.filter fun q => q ≠ r
  left : (¬ p.Owed ∧ ¬ p'.Owed) ∨ SameLeft p p' path path'

/-- With no movement-bound stimulus in progress `r` is found at the front, and a remainder
is owed, or another stimulus waits behind it, or it is movement-bound itself. -/
def Disturbed (heap : Store HostData) (r : Ref) (p : Playback) : Prop :=
  p.hijacked = none ∧ p.queue.head? = some r ∧
    (p.Owed ∨ p.queue.tail ≠ [] ∨
      (heap.deref r).stimulusDuration = iPlayStimulusAsLongAsMovementsPending)

instance (p : Playback) : Decidable p.Owed := by unfold Playback.Owed; infer_instance

instance (heap : Store HostData) (r : Ref) (p : Playback) : Decidable (Disturbed heap r p) := by
  unfold Disturbed; infer_instance

theorem SameLeft.load (files : Files) (p p' : Playback) (path path' : Option String)
    {d : HostData} (known : (pathToAudio d.stimulusNr).isSome = true) :
    SameLeft (p.load files d) (p'.load files d) ((pathToAudio d.stimulusNr).or path)
      ((pathToAudio d.stimulusNr).or path') := by
  obtain ⟨name, hname⟩ := Option.isSome_iff_exists.mp known
  refine ⟨?_, rfl, rfl, ?_⟩
  · rw [Playback.load, Playback.load, hname]
    rfl
  · rw [hname, Option.some_or, Option.some_or]

theorem SameLeft.play (files : Files) {p p' : Playback} {path path' : Option String}
    (h : SameLeft p p' path path') : SameLeft (p.play files) (p'.play files) path path' := by
  rw [Playback.play, Playback.play, h.length, h.desired]
  split_ifs
  · exact h
  · exact ⟨rfl, rfl, rfl, h.path⟩
  · exact ⟨rfl, rfl, rfl, h.path⟩
  · exact h

theorem Playback.silence_congr {p p' : Playback} (h : p'.hijacked = p.hijacked)
    (heap : Store HostData) : p'.silence heap = p.silence heap := by
  rw [silence, silence, h]

namespace Without

variable {files : Files} {heap : Store HostData} {r : Ref} {p p' : Playback}
  {path path' : Option String}

theorem owed_iff (h : Without r p p' path path') : p'.Owed ↔ p.Owed := by
  rcases h.left with ⟨hp, hp'⟩ | hsame
  · exact iff_of_false hp' hp
  · rw [Playback.Owed, Playback.Owed, hsame.fraction]

theorem continueBound (h : Without r p p' path path') (heap : Store HostData)
    (moving finished : Bool) :
    (p'.continueBound heap moving finished).1 = (p.continueBound heap moving finished).1 ∧
      Without r (p.continueBound heap moving finished).2 (p'.continueBound heap moving finished).2
        path path' := by
  rw [Playback.continueBound, Playback.continueBound]
  cases moving with
  | true => exact ⟨Playback.silence_congr h.hijacked heap, h⟩
  | false =>
    cases finished with
    | true =>
      refine ⟨rfl, rfl, h.queue, ?_⟩
      rcases h.left with hnone | hsame
      · exact Or.inl hnone
      · exact Or.inr ⟨hsame.length, hsame.desired, hsame.fraction, hsame.path⟩
    | false => exact ⟨rfl, h⟩

structure SameTick (files : Files) (heap : Store HostData) (r : Ref) (p p' : Playback)
    (path path' : Option String) (moving finished : Bool) : Prop where
  store : (p'.tick files heap moving finished).1 = (p.tick files heap moving finished).1
  without : Without r (p.tick files heap moving finished).2 (p'.tick files heap moving finished).2
    (p.tickPath heap path) (p'.tickPath heap path')
  heard : p'.heard files heap path' moving finished = p.heard files heap path moving finished

theorem tick_hijacked (h : Without r p p' path path') (hp : p.Playable heap) {s : Ref}
    (hj : p.hijacked = some s) (moving finished : Bool) :
    SameTick files heap r p p' path path' moving finished := by
  obtain ⟨bound, known⟩ := hp s hj
  have hj' := h.hijacked.trans hj
  have hload : Without r (p.load files (heap.deref s)) (p'.load files (heap.deref s))
      ((pathToAudio (heap.deref s).stimulusNr).or path)
      ((pathToAudio (heap.deref s).stimulusNr).or path') :=
    ⟨h.hijacked, h.queue, Or.inr (SameLeft.load files p p' path path' known)⟩
  have hpath (p : Playback) (path : Option String) (hj : p.hijacked = some s) :
      p.tickPath heap path = (pathToAudio (heap.deref s).stimulusNr).or path := by
    rw [Playback.tickPath, Playback.candidate, hj]
    rfl
  obtain ⟨hheap, hwithout⟩ := hload.continueBound heap moving finished
  refine ⟨?_, ?_, ?_⟩
  · rw [p.tick_hijacked files heap hj bound known, p'.tick_hijacked files heap hj' bound known]
    exact hheap
  · rw [p.tick_hijacked files heap hj bound known, p'.tick_hijacked files heap hj' bound known,
      hpath p path hj, hpath p' path' hj']
    exact hwithout
  · simp only [Playback.heard, hj, hj']

theorem tick_nil (h : Without r p p' path path') (hj : p.hijacked = none) (hq : p.queue = [])
    (moving finished : Bool) : SameTick files heap r p p' path path' moving finished := by
  have hj' := h.hijacked.trans hj
  have hq' : p'.queue = [] := by rw [h.queue, hq]; rfl
  have hpath (p : Playback) (path : Option String) (hj : p.hijacked = none) (hq : p.queue = []) :
      p.tickPath heap path = path := by
    rw [Playback.tickPath, Playback.candidate, hj, hq]
    rfl
  have howed : 0.0001 < p'.fraction ↔ 0.0001 < p.fraction := h.owed_iff
  refine ⟨?_, ?_, ?_⟩
  · rw [p.tick_nil files heap hj hq, p'.tick_nil files heap hj' hq']
  · rw [p.tick_nil files heap hj hq, p'.tick_nil files heap hj' hq', hpath p path hj hq,
      hpath p' path' hj' hq']
    by_cases ho : 0.0001 < p.fraction
    · have hsame := h.left.resolve_left fun hn => hn.1 ho
      rw [if_pos ho, if_pos (howed.mpr ho)]
      refine ⟨?_, ?_, Or.inr (hsame.play files)⟩
      · rw [Playback.play_hijacked, Playback.play_hijacked, h.hijacked]
      · rw [Playback.play_queue, Playback.play_queue, h.queue]
    · rw [if_neg ho, if_neg (fun ho' => ho (howed.mp ho'))]
      exact h
  · simp only [Playback.heard, hj, hj', hq, hq']
    by_cases ho : 0.0001 < p.fraction
    · have hsame := h.left.resolve_left fun hn => hn.1 ho
      rw [if_pos ho, if_pos (howed.mpr ho), hsame.path, hsame.length, hsame.desired,
        hsame.fraction]
    · rw [if_neg ho, if_neg (fun ho' => ho (howed.mp ho'))]

/-- Any other stimulus at the front is at the front without `r` too. -/
theorem queue_cons (h : Without r p p' path path') {front : Ref} {rest : List Ref}
    (hq : p.queue = front :: rest) (hne : front ≠ r) :
    p'.queue = front :: rest.filter fun q => q ≠ r := by
  rw [h.queue, hq, List.filter_cons_of_pos (by simpa using hne)]

theorem tickPath_cons (p : Playback) (heap : Store HostData) (path : Option String) {front : Ref}
    {rest : List Ref} (hj : p.hijacked = none) (hq : p.queue = front :: rest) :
    p.tickPath heap path = (pathToAudio (heap.deref front).stimulusNr).or path := by
  rw [Playback.tickPath, Playback.candidate_cons hj hq, Option.elim_some]

theorem tick_take (h : Without r p p' path path') (hk : Known heap) (hj : p.hijacked = none)
    {front : Ref} {rest : List Ref} (hq : p.queue = front :: rest) (hne : front ≠ r)
    (bound : (heap.deref front).stimulusDuration = iPlayStimulusAsLongAsMovementsPending)
    (moving finished : Bool) : SameTick files heap r p p' path path' moving finished := by
  have hj' := h.hijacked.trans hj
  have hq' := h.queue_cons hq hne
  have known : (pathToAudio (heap.deref front).stimulusNr).isSome = true := by
    apply (hk front).resolve_left
    intro hz
    rw [hz] at bound
    exact absurd bound (by decide)
  have htaken : Without r
      ({ p with hijacked := some front, queue := rest }.load files (heap.deref front))
      ({ p' with hijacked := some front, queue := rest.filter fun q => q ≠ r }.load files
        (heap.deref front))
      ((pathToAudio (heap.deref front).stimulusNr).or path)
      ((pathToAudio (heap.deref front).stimulusNr).or path') :=
    ⟨rfl, rfl, Or.inr (SameLeft.load files _ _ path path' known)⟩
  obtain ⟨hheap, hwithout⟩ := htaken.continueBound heap moving finished
  refine ⟨?_, ?_, ?_⟩
  · rw [Playback.tick_take files heap hj hq bound, Playback.tick_take files heap hj' hq' bound]
    exact hheap
  · rw [Playback.tick_take files heap hj hq bound, Playback.tick_take files heap hj' hq' bound,
      tickPath_cons p heap path hj hq, tickPath_cons p' heap path' hj' hq']
    exact hwithout
  · simp only [Playback.heard, hj, hj', hq, hq', if_pos bound]

theorem tick_front (h : Without r p p' path path') (hk : Known heap) (hj : p.hijacked = none)
    {front : Ref} {rest : List Ref} (hq : p.queue = front :: rest) (hne : front ≠ r)
    (unbound : (heap.deref front).stimulusDuration ≠ iPlayStimulusAsLongAsMovementsPending)
    (moving finished : Bool) : SameTick files heap r p p' path path' moving finished := by
  have hj' := h.hijacked.trans hj
  have hq' := h.queue_cons hq hne
  have hheard : p'.heard files heap path' moving finished =
      p.heard files heap path moving finished := by
    simp only [Playback.heard, hj, hj', hq, hq', if_neg unbound]
    rw [Playback.heardFront, Playback.heardFront]
    split_ifs with triggered
    · obtain ⟨name, hname⟩ := hk.exists_path triggered
      rw [(SameLeft.load files p p' path path' (by rw [hname, Option.isSome_some])).length]
    · rfl
  refine ⟨?_, ?_, hheard⟩
  · rw [Playback.tick_front files heap hj hq unbound,
      Playback.tick_front files heap hj' hq' unbound]
  · rw [Playback.tick_front files heap hj hq unbound,
      Playback.tick_front files heap hj' hq' unbound, tickPath_cons p heap path hj hq,
      tickPath_cons p' heap path' hj' hq']
    refine ⟨?_, ?_, ?_⟩
    · rw [Playback.trigger_hijacked, Playback.trigger_hijacked]
      exact h.hijacked
    · rw [Playback.trigger_queue, Playback.trigger_queue]
    · cases triggered : (heap.deref front).toBeTriggerd with
      | true =>
        obtain ⟨name, hname⟩ := hk.exists_path triggered
        have known : (pathToAudio (heap.deref front).stimulusNr).isSome = true := by
          rw [hname, Option.isSome_some]
        rw [Playback.trigger_of_toBeTriggerd files _ triggered known,
          Playback.trigger_of_toBeTriggerd files _ triggered known]
        exact Or.inr (SameLeft.play files (SameLeft.load files _ _ path path' known))
      | false =>
        rw [Playback.trigger_of_not_toBeTriggerd files _ triggered,
          Playback.trigger_of_not_toBeTriggerd files _ triggered]
        have hzero : ¬ (0.0001 : ℚ) < 0 := by norm_num
        exact Or.inl ⟨hzero, hzero⟩

theorem tick_inert (h : Without r p p' path path') (hj : p.hijacked = none) {rest : List Ref}
    (hq : p.queue = r :: rest) (inert : (heap.deref r).toBeTriggerd = false)
    (hd : ¬ Disturbed heap r p) (moving finished : Bool) :
    SameTick files heap r p p' path path' moving finished := by
  have hj' := h.hijacked.trans hj
  simp only [Disturbed, hj, hq, List.head?_cons, List.tail_cons, true_and, not_or,
    not_not] at hd
  obtain ⟨howed, rfl, unbound⟩ := hd
  have hq' : p'.queue = [] := by
    rw [h.queue, hq, List.filter_cons_of_neg (by simp)]
    rfl
  have howed' : ¬ 0.0001 < p'.fraction := fun ho => howed (h.owed_iff.mp ho)
  have htick := Playback.tick_front files heap hj hq unbound moving finished
  have htick' := p'.tick_nil files heap hj' hq' moving finished
  rw [if_neg howed'] at htick'
  rw [Playback.trigger_of_not_toBeTriggerd files _ inert] at htick
  refine ⟨by rw [htick, htick'], ?_, ?_⟩
  · rw [htick, htick']
    have hzero : ¬ (0.0001 : ℚ) < 0 := by norm_num
    exact ⟨h.hijacked, hq', Or.inl ⟨hzero, howed'⟩⟩
  · simp only [Playback.heard, hj, hj', hq, hq', if_neg unbound, if_neg howed']
    rw [Playback.heardFront, if_neg (by simp [inert])]

/-- **A stimulus that is not to be triggered is not heard**, in a tick that does not find
it with something to disturb. -/
theorem tick (h : Without r p p' path path') (hk : Known heap) (hp : p.Playable heap)
    (inert : (heap.deref r).toBeTriggerd = false) (hd : ¬ Disturbed heap r p)
    (moving finished : Bool) : SameTick files heap r p p' path path' moving finished := by
  cases hj : p.hijacked with
  | some s => exact h.tick_hijacked hp hj moving finished
  | none =>
    cases hq : p.queue with
    | nil => exact h.tick_nil hj hq moving finished
    | cons front rest =>
      by_cases hne : front = r
      · subst hne
        exact h.tick_inert hj hq inert hd moving finished
      · by_cases bound :
          (heap.deref front).stimulusDuration = iPlayStimulusAsLongAsMovementsPending
        · exact h.tick_take hk hj hq hne bound moving finished
        · exact h.tick_front hk hj hq hne bound moving finished

end Without

end Orbiter.Stimuli
