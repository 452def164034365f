import Orbiter.Main.Timer
import Orbiter.Toolbox.Grammar

/-!
# Stimuli over whole runs

The tick of the program on its `Playback`, the laws that hold between two ticks,
and what becomes of an owed remainder when another stimulus waits.

* `playback_timerFunc`: **the stimuli part of a tick is `Playback.tick`** behind the
  message it handled.
* `stimuliInvariant`: the remainder is shorter than the sound, and the movement-bound
  stimulus is playable.
* `remainder_not_played`: **a queued stimulus swallows the remainder**, since looking
  at it already loads it.
-/

namespace Orbiter.Main

open Cxx Toolbox Stimuli Globals

variable {env : Env}

/-! ### What the decoder lets through -/

theorem pathToAudio_isSome {nr : Int} (h1 : 1 ≤ nr) (h3 : nr ≤ 3) :
    (pathToAudio nr).isSome = true := by
  rw [pathToAudio]
  split_ifs with ha hb hc
  · rfl
  · rfl
  · rfl
  · omega

/-- What is decoded is all zero or names a stimulus. -/
theorem known_decodeHostData (pow : ℚ → ℚ → ℚ) (s : Str) (speakerID : Nat) :
    decodeHostData pow s speakerID = HostData.zero ∨
      (pathToAudio (decodeHostData pow s speakerID).stimulusNr).isSome = true := by
  by_cases h : ∃ f, Accepts s speakerID f
  · obtain ⟨f, hf⟩ := h
    right
    rw [decodeHostData_of_accepts hf, hf.2.2.stimulusNr]
    exact pathToAudio_isSome hf.2.2.2.2.1 hf.2.2.2.2.2.1
  · exact Or.inl (decodeHostData_of_not_accepts (not_exists.mp h))

theorem stimulusDuration_decodeHostData_lt (pow : ℚ → ℚ → ℚ) (s : Str) (speakerID : Nat) :
    (decodeHostData pow s speakerID).stimulusDuration < 2 ^ 32 := by
  by_cases h : ∃ f, Accepts s speakerID f
  · obtain ⟨f, hf⟩ := h
    rw [decodeHostData_of_accepts hf]
    exact toUnsigned_lt 32 f.stimDur
  · rw [decodeHostData_of_not_accepts (not_exists.mp h)]
    decide

/-- What holds of everything decoded holds of the store of what was decoded. -/
theorem forall_hostData {P : HostData → Prop} (hzero : P HostData.zero)
    (hdecode : ∀ s, P (decodeHostData env.pow s 0)) (g : Globals) (r : Ref) :
    P ((g.hostData env).deref r) := by
  by_cases hr : r < g.decoded.length
  · have hget : (g.hostData env).deref r = decodeHostData env.pow (g.decoded[r]) 0 := by
      simp [Store.deref, hostData, List.getD_eq_getElem?_getD, hr]
    rw [hget]
    exact hdecode _
  · rw [Store.deref_of_ge (by simpa [Store.next, hostData] using hr)]
    exact hzero

theorem known_heap {g : Globals} (h : (machine env).Reachable g) : Known g.heap := by
  have hknown : Known (g.hostData env) := forall_hostData
    (P := fun d => d = HostData.zero ∨ (pathToAudio d.stimulusNr).isSome = true) (Or.inl rfl)
    (fun s => known_decodeHostData env.pow s 0) g
  exact hknown.started (started_hostData.of_reachable h)

theorem stimulusDuration_lt {g : Globals} (h : (machine env).Reachable g) (r : Ref) :
    (g.heap.deref r).stimulusDuration < 2 ^ 32 := by
  have hdecoded := forall_hostData (P := fun d => d.stimulusDuration < 2 ^ 32) (by decide)
    (fun s => stimulusDuration_decodeHostData_lt env.pow s 0) g r
  rcases (started_hostData.of_reachable h).deref r with hr | hr
  · rwa [hr]
  · rwa [hr]

/-! ### The tick -/

/-- The queue and the store behind the message, as the stimuli see them. -/
theorem playback_afterMessage (env : Env) (g : Globals) :
    (g.message = [] ∧ (g.afterMessage env).heap = g.heap ∧
      (g.afterMessage env).stimuliLib = g.stimuliLib) ∨
    (g.message ≠ [] ∧
      (g.afterMessage env).heap = g.heap.alloc (decodeHostData env.pow g.message 0) ∧
      (g.afterMessage env).stimuliLib = { g.stimuliLib with
        stimuliQueue := if (decodeHostData env.pow g.message 0).stimQueued then
          g.stimuliLib.stimuliQueue ++ [g.heap.next] else [g.heap.next] }) := by
  by_cases hm : g.message = []
  · left
    rw [afterMessage_of_nil env hm]
    exact ⟨hm, rfl, rfl⟩
  · have hi := afterMessage_of_ne_nil env hm
    exact Or.inr ⟨hm, hi.heap, hi.stimuliLib⟩

theorem stimuli_timerFunc (env : Env) (g : Globals) (answers : Answers) :
    ((g.timerFunc env answers).heap, (g.timerFunc env answers).stimuliLib) =
      (g.afterMessage env).stimuliLib.processStimuli env.toFiles (g.afterMessage env).heap
        (g.timerFunc env answers).movementQueue answers := by
  have hframe := processMovement_frame (g := g.afterMessage env) answers.movementReached
  rw [← hframe.heap, ← hframe.stimuliLib]
  rfl

/-- **The stimuli part of a tick is `Playback.tick`.** -/
theorem playback_timerFunc (env : Env) (g : Globals) (answers : Answers) :
    ((g.timerFunc env answers).heap, (g.timerFunc env answers).stimuliLib.playback) =
      (g.afterMessage env).stimuliLib.playback.tick env.toFiles (g.afterMessage env).heap
        (StimuliLibrary.moving (g.timerFunc env answers).movementQueue answers)
        answers.finishedReached := by
  have h := stimuli_timerFunc env g answers
  rw [← StimuliLibrary.processStimuli_playback, ← h]

structure StimuliInvariant (g : Globals) : Prop where
  owes : g.stimuliLib.playback.Owes
  playable : g.stimuliLib.playback.Playable g.heap

theorem StimuliInvariant.afterMessage {g : Globals} (h : StimuliInvariant g) (hk : Known g.heap)
    (env : Env) : StimuliInvariant (g.afterMessage env) ∧ Known (g.afterMessage env).heap := by
  rcases playback_afterMessage env g with ⟨-, hheap, hlib⟩ | ⟨-, hheap, hlib⟩
  · exact ⟨⟨by rw [hlib]; exact h.owes, by rw [hheap, hlib]; exact h.playable⟩, by rwa [hheap]⟩
  · refine ⟨⟨by rw [hlib]; exact h.owes, ?_⟩, ?_⟩
    · rw [hheap, hlib]
      exact h.playable.alloc _
    · rw [hheap]
      exact hk.alloc (known_decodeHostData _ _ _)

theorem stimuliInvariant : (machine env).Invariant StimuliInvariant where
  init := ⟨Or.inl rfl, nofun⟩
  step := by
    intro g a hg h
    cases a with
    | tcpPush msg => exact ⟨h.owes, h.playable⟩
    | irPush code => exact ⟨h.owes, h.playable⟩
    | tick answers =>
      obtain ⟨hmsg, hknown⟩ := h.afterMessage (known_heap hg) env
      have ht := playback_timerFunc env g answers
      have howes := hmsg.owes.tick env.toFiles (g.afterMessage env).heap
        (StimuliLibrary.moving (g.timerFunc env answers).movementQueue answers)
        answers.finishedReached
      have hplayable := hmsg.playable.tick env.toFiles hknown
        (StimuliLibrary.moving (g.timerFunc env answers).movementQueue answers)
        answers.finishedReached
      rw [← ht] at howes hplayable
      exact ⟨howes, hplayable⟩

/-! ### The owed remainder -/

/-- A remainder is owed, and no stimulus is movement-bound. -/
structure Owed (lib : StimuliLibrary) : Prop where
  free : lib.hostDataOfHijackedProtocol = none
  fraction : lib.bGetIsThereAFractionLeftToPlay = true

def callsBy (env : Env) (g : Globals) (a : Act) : List Call :=
  (step env g a).stimuliLib.calls.drop g.stimuliLib.calls.length

/-- The call of `playStimuli` that the remainder is owed. -/
def remainderCall (lib : StimuliLibrary) : Call :=
  .playStimuli lib.audio lib.audioFileLengthMs lib.uiDesiredDurationMs
    lib.dFractionOfAudioFileLeftToPlay

/-- The step plays the owed remainder before it loads anything. -/
def PlaysRemainder (env : Env) (g : Globals) (a : Act) : Prop :=
  remainderCall g.stimuliLib ∈ (callsBy env g a).takeWhile fun c => !c.isLoad

instance (env : Env) (g : Globals) (a : Act) : Decidable (PlaysRemainder env g a) := by
  unfold PlaysRemainder; infer_instance

theorem callsBy_of_prefix {g : Globals} {a : Act} {cs : List Call}
    (h : g.stimuliLib.calls ++ cs <+: (step env g a).stimuliLib.calls) :
    cs <+: callsBy env g a := by
  obtain ⟨rest, h⟩ := h
  exact ⟨rest, by rw [callsBy, ← h, List.append_assoc, List.drop_left]⟩

/-- Looking at a stimulus in the queue loads it before anything is played. -/
theorem not_playsRemainder_of_cons (env : Env) {g : Globals} {front : Ref} {rest : List Ref}
    (hj : g.stimuliLib.hostDataOfHijackedProtocol = none)
    (hq : (g.afterMessage env).stimuliLib.stimuliQueue = front :: rest) (answers : Answers) :
    ¬ PlaysRemainder env g (.tick answers) := by
  have hframe := afterMessage_frame env g
  have ht := congrArg (fun x => x.2.calls) (stimuli_timerFunc env g answers)
  have hfirst := StimuliLibrary.prefix_processStimuli_cons env.toFiles (g.afterMessage env).heap
    (g.afterMessage env).stimuliLib (hframe.hostDataOfHijackedProtocol.trans hj) hq
    (g.timerFunc env answers).movementQueue answers
  rw [hframe.calls] at hfirst
  obtain ⟨rest, h⟩ := callsBy_of_prefix (a := .tick answers) (ht ▸ hfirst)
  rw [PlaysRemainder, ← h]
  simp [Call.isLoad, remainderCall]

/-- **A queued stimulus swallows the remainder**: whatever is owed, the tick that
handles an accepted message with a queued stimulus does not play it before it loads. -/
theorem remainder_not_played (g : Globals) (ho : Owed g.stimuliLib) (ha : Accepted g.message)
    (hs : (decodeHostData env.pow g.message 0).stimQueued = true) (answers : Answers) :
    ¬ PlaysRemainder env g (.tick answers) := by
  have hi := afterMessage_of_ne_nil env ha.ne_nil
  have hq : (g.afterMessage env).stimuliLib.stimuliQueue =
      g.stimuliLib.stimuliQueue ++ [g.heap.next] := by
    rw [hi.stimuliLib]
    exact if_pos hs
  cases hqueue : g.stimuliLib.stimuliQueue ++ [g.heap.next] with
  | nil => simp at hqueue
  | cons front rest => exact not_playsRemainder_of_cons env ho.free (hq.trans hqueue) answers

/-- A remainder of half a second, and the record of a queued stimulus behind it. -/
def halfOwed : Globals :=
  (machine oneSecond).run [.tcpPush "000010.00000.000010025009011".toList, .tick arrived,
    .tcpPush "000010.00000.000020005009010".toList]

/-- The stimulus behind it is loaded in place of the remainder. -/
theorem remainder_swallowed : (machine oneSecond).Reachable halfOwed ∧
    Owed halfOwed.stimuliLib ∧ halfOwed.stimuliLib.dFractionOfAudioFileLeftToPlay = 1 / 2 ∧
    Accepted halfOwed.message ∧
    (decodeHostData oneSecond.pow halfOwed.message 0).stimQueued = true ∧
    ¬ PlaysRemainder oneSecond halfOwed (.tick arrived) :=
  ⟨(machine oneSecond).reachable_run _, ⟨by decide +kernel, by decide +kernel⟩,
    by decide +kernel, by decide +kernel, by decide +kernel, by decide +kernel⟩

theorem remainder_not_played_half : ¬ PlaysRemainder oneSecond halfOwed (.tick arrived) :=
  remainder_not_played halfOwed ⟨by decide +kernel, by decide +kernel⟩ (by decide +kernel)
    (by decide +kernel) arrived

end Orbiter.Main
