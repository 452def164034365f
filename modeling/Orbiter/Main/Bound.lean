import Orbiter.Main.Events

/-!
# The movement-bound stimulus

A stimulus of duration 991111 is taken out of the queue and sounds as long as
movements are pending.  While it is in progress every other stimulus waits.

* `bound_playable`: **a movement-bound stimulus can always be loaded**, so the check for
  pending movements never runs off its end.
* `bound_exclusive`: **a movement-bound stimulus is exclusive**, and ends only in a
  tick that finds no movement queued and the motor arrived.
* `instant_starts_iff`: **an instant stimulus starts at once** exactly when no
  movement-bound one is in progress.
-/

namespace Orbiter.Main

open Cxx Toolbox Stimuli Globals

variable {env : Env}

/-! ### The stimuli of a reachable state -/

/-- **The stimuli of every reachable state**: a queued one is all zero or has a number from
1 to 3, the movement-bound one has such a number and the duration 991111, and the check has
never run off its end. -/
theorem bound_playable (env : Env) (acts : List Act) :
    (∀ r ∈ ((machine env).run acts).stimuliLib.stimuliQueue,
      (1 ≤ (((machine env).run acts).heap.deref r).stimulusNr ∧
        (((machine env).run acts).heap.deref r).stimulusNr ≤ 3) ∨
      ((machine env).run acts).heap.deref r = HostData.zero) ∧
    (∀ r, ((machine env).run acts).stimuliLib.hostDataOfHijackedProtocol = some r →
      1 ≤ (((machine env).run acts).heap.deref r).stimulusNr ∧
        (((machine env).run acts).heap.deref r).stimulusNr ≤ 3 ∧
        (((machine env).run acts).heap.deref r).stimulusDuration = 991111) ∧
    .missingReturn ∉ ((machine env).run acts).stimuliLib.calls := by
  have hg := (machine env).reachable_run acts
  refine ⟨?_, ?_, Orderly.missingReturn ((logged_reachable env).run acts)⟩
  · intro r _
    exact (known_heap hg r).symm.imp_left pathToAudio_isSome_iff.mp
  · intro r hr
    have hinv := stimuliInvariant.of_reachable hg
    obtain ⟨hduration, hknown⟩ := hinv.playable r hr
    obtain ⟨h1, h3⟩ := pathToAudio_isSome_iff.mp hknown
    exact ⟨h1, h3, hduration⟩

/-! ### Taking and clearing -/

/-- The step takes the stimulus at `r` as the movement-bound one. -/
def Takes (env : Env) (g : Globals) (a : Act) (r : Ref) : Prop :=
  .setHijackedProtocol r ∈ callsBy env g a

def Clears (env : Env) (g : Globals) (a : Act) : Prop :=
  .vSetHijackedProtocolIsCompletelyProcessed ∈ callsBy env g a

instance (env : Env) (g : Globals) (a : Act) (r : Ref) : Decidable (Takes env g a r) := by
  unfold Takes; infer_instance

instance (env : Env) (g : Globals) (a : Act) : Decidable (Clears env g a) := by
  unfold Clears; infer_instance

/-- What `bAdaptStimulusParametersDueToHijacking` returns in a tick. -/
def adapts (env : Env) (g : Globals) (answers : Answers) : Bool :=
  let g := g.afterMovement env answers
  (g.stimuliLib.updateFSystem.bAdaptStimulusParametersDueToHijacking env.toFiles g.heap
    g.movementQueue answers).1

/-- `playStimuli` or `vPlayStimulusIfToBeTriggered` is called. -/
def plays : Call → Bool
  | .playStimuli _ _ _ _ => true
  | .vPlayStimulusIfToBeTriggered _ => true
  | _ => false

/-- A tick of a movement-bound stimulus: nothing else is played, and it is cleared only
behind a movement step that leaves no movement, by answers of the motor that are all
true, together with the stop. -/
structure Exclusive (env : Env) (g : Globals) (answers : Answers) : Prop where
  adapts : adapts env g answers = true
  silent : ∀ c ∈ callsBy env g (.tick answers), plays c = false
  stops : Clears env g (.tick answers) ↔ .stopStimuli ∈ callsBy env g (.tick answers)
  ends : Clears env g (.tick answers) →
    (g.afterMovement env answers).movementQueue = [] ∧
      .reachedTarget true ∈ callsBy env g (.tick answers) ∧
      .reachedTarget false ∉ callsBy env g (.tick answers)

theorem adapts_eq (env : Env) (g : Globals) (answers : Answers) : adapts env g answers =
    (g.afterMessage env).stimuliLib.playback.bound (g.afterMessage env).heap := by
  have hframe := processMovement_frame (g := g.afterMessage env) answers.movementReached
  have hbound := ((g.afterMessage env).stimuliLib.updateFSystem.bIsStimulusToPlay_eq env.toFiles
    (g.afterMessage env).heap).1
  rw [StimuliLibrary.updateFSystem_playback] at hbound
  rw [adapts, afterMovement, hframe.stimuliLib, hframe.heap, ← hbound,
    StimuliLibrary.bAdaptStimulusParametersDueToHijacking]
  simp only
  split_ifs with h
  · exact h.symm
  · exact (Bool.eq_false_iff.mpr h).symm

/-! ### The two ways of a movement-bound stimulus -/

/-- The tick goes one of the two ways of the movement-bound stimulus at `r`. -/
structure BoundTick (env : Env) (g : Globals) (answers : Answers) (r : Ref) (first : List Call) :
    Prop where
  step : TickStep env g answers (first ++ StimuliLibrary.continueCalls (g.afterMessage env).heap r
    (g.timerFunc env answers).movementQueue answers)
  first : ∀ c ∈ first, c.isLoad = true ∨ c = .setHijackedProtocol r
  adapts : adapts env g answers = true
  hijacked : (g.timerFunc env answers).stimuliLib.hostDataOfHijackedProtocol =
    if StimuliLibrary.moving (g.timerFunc env answers).movementQueue answers ||
        !answers.finishedReached then some r else none

/-- A movement-bound stimulus is cleared by two answers, or the motor's answers and its
start are all that is called. -/
theorem continueCalls_cases (heap : Store HostData) (r : Ref) (movementQueue : List Ref)
    (answers : Answers) :
    (movementQueue = [] ∧ StimuliLibrary.moving movementQueue answers = false ∧
      answers.finishedReached = true ∧
      StimuliLibrary.continueCalls heap r movementQueue answers = [.reachedTarget true,
        .reachedTarget true, .vSetHijackedProtocolIsCompletelyProcessed, .stopStimuli]) ∨
    ((StimuliLibrary.moving movementQueue answers = true ∨ answers.finishedReached = false) ∧
      ∀ c ∈ StimuliLibrary.continueCalls heap r movementQueue answers,
        c = .playInfinitely r ∨ ∃ answer, c = .reachedTarget answer) := by
  have hloop : ∀ c ∈ StimuliLibrary.loopCalls heap r, c = .playInfinitely r := by
    intro c hc
    rw [StimuliLibrary.loopCalls] at hc
    split_ifs at hc
    · exact List.mem_singleton.mp hc
    · exact absurd hc (by simp)
  cases movementQueue with
  | cons m rest => exact Or.inr ⟨Or.inl rfl, fun c hc => Or.inl (hloop c hc)⟩
  | nil =>
    cases hp : answers.pendingReached with
    | false =>
      right
      refine ⟨Or.inl (by rw [StimuliLibrary.moving, hp]; rfl), ?_⟩
      intro c hc
      rw [StimuliLibrary.continueCalls, if_neg (by simp), if_pos hp, List.mem_cons] at hc
      rcases hc with hc | hc
      · exact Or.inr ⟨_, hc⟩
      · exact Or.inl (hloop c hc)
    | true =>
      have hcalls : StimuliLibrary.continueCalls heap r [] answers =
          [.reachedTarget true, .reachedTarget answers.finishedReached] ++
            if answers.finishedReached then
              [.vSetHijackedProtocolIsCompletelyProcessed, .stopStimuli] else [] := by
        rw [StimuliLibrary.continueCalls, if_neg (by simp), if_neg (by simp [hp]), hp]
        rfl
      cases hf : answers.finishedReached with
      | true =>
        left
        refine ⟨rfl, by rw [StimuliLibrary.moving, hp]; rfl, rfl, ?_⟩
        rw [hcalls, hf]
        rfl
      | false =>
        right
        refine ⟨Or.inr rfl, ?_⟩
        intro c hc
        rw [hcalls, hf] at hc
        simp only [Bool.false_eq_true, if_false, List.append_nil, List.mem_cons,
          List.not_mem_nil, or_false] at hc
        rcases hc with hc | hc <;> exact Or.inr ⟨_, hc⟩

namespace BoundTick

variable {g : Globals} {answers : Answers} {r : Ref} {first : List Call}

theorem mem_iff (h : BoundTick env g answers r first) {c : Call} (hc : c.isMethod = true)
    (hload : c.isLoad = false) (hset : c ≠ .setHijackedProtocol r) :
    c ∈ callsBy env g (.tick answers) ↔
      c ∈ StimuliLibrary.continueCalls (g.afterMessage env).heap r
        (g.timerFunc env answers).movementQueue answers := by
  rw [mem_callsBy_iff h.step hc, List.mem_append, or_iff_right]
  intro hm
  rcases h.first c hm with hl | hs
  · rw [hload] at hl
    exact absurd hl (by simp)
  · exact hset hs

theorem clears_iff (h : BoundTick env g answers r first) : Clears env g (.tick answers) ↔
    StimuliLibrary.moving (g.timerFunc env answers).movementQueue answers = false ∧
      answers.finishedReached = true := by
  rw [Clears, h.mem_iff rfl rfl (by simp)]
  rcases continueCalls_cases (g.afterMessage env).heap r (g.timerFunc env answers).movementQueue
    answers with ⟨-, hmoving, hfinished, hcalls⟩ | ⟨hgo, hcalls⟩
  · rw [hcalls]
    simp [hmoving, hfinished]
  · constructor
    · intro hm
      rcases hcalls _ hm with hc | ⟨answer, hc⟩ <;> exact absurd hc (by simp)
    · rintro ⟨hmoving, hfinished⟩
      rw [hmoving, hfinished] at hgo
      exact absurd hgo (by simp)

/-- The movement-bound stimulus stays in progress until it is cleared. -/
theorem hijacked_of_not_clears (h : BoundTick env g answers r first)
    (hc : ¬ Clears env g (.tick answers)) :
    (g.timerFunc env answers).stimuliLib.hostDataOfHijackedProtocol = some r := by
  rw [h.hijacked, if_pos]
  rw [h.clears_iff, not_and] at hc
  cases hmoving : StimuliLibrary.moving (g.timerFunc env answers).movementQueue answers with
  | true => rfl
  | false => simpa using hc hmoving

/-- **One tick of a movement-bound stimulus.** -/
theorem exclusive (h : BoundTick env g answers r first) : Exclusive env g answers := by
  refine ⟨h.adapts, ?_, ?_, ?_⟩
  · intro c hc
    by_contra hplays
    rw [Bool.not_eq_false] at hplays
    have hm : c ∈ StimuliLibrary.continueCalls (g.afterMessage env).heap r
        (g.timerFunc env answers).movementQueue answers := by
      apply (h.mem_iff ?_ ?_ ?_).mp hc <;> cases c <;> simp_all [plays, Call.isMethod, Call.isLoad]
    rcases continueCalls_cases (g.afterMessage env).heap r (g.timerFunc env answers).movementQueue
      answers with ⟨-, -, -, hcalls⟩ | ⟨-, hcalls⟩
    · rw [hcalls] at hm
      simp only [List.mem_cons, List.not_mem_nil, or_false] at hm
      rcases hm with rfl | rfl | rfl | rfl <;> exact absurd hplays (by simp [plays])
    · rcases hcalls c hm with rfl | ⟨answer, rfl⟩ <;> exact absurd hplays (by simp [plays])
  · rw [Clears, h.mem_iff rfl rfl (by simp), h.mem_iff rfl rfl (by simp)]
    rcases continueCalls_cases (g.afterMessage env).heap r (g.timerFunc env answers).movementQueue
      answers with ⟨-, -, -, hcalls⟩ | ⟨-, hcalls⟩
    · rw [hcalls]
      simp
    · constructor <;>
      · intro hm
        rcases hcalls _ hm with hc | ⟨answer, hc⟩ <;> exact absurd hc (by simp)
  · intro hclears
    rw [Clears, h.mem_iff rfl rfl (by simp)] at hclears
    rw [h.mem_iff rfl rfl (by simp), h.mem_iff rfl rfl (by simp)]
    rcases continueCalls_cases (g.afterMessage env).heap r (g.timerFunc env answers).movementQueue
      answers with ⟨hqueue, -, -, hcalls⟩ | ⟨-, hcalls⟩
    · rw [hcalls]
      exact ⟨hqueue, by simp, by simp⟩
    · rcases hcalls _ hclears with hc | ⟨answer, hc⟩ <;> exact absurd hc (by simp)

end BoundTick

/-! ### From the taking to the clearing -/

theorem continueHijackedProtocol_hijacked (heap : Store HostData) (lib : StimuliLibrary)
    (movementQueue : List Ref) (answers : Answers) :
    (lib.continueHijackedProtocol heap movementQueue answers).2.hostDataOfHijackedProtocol =
      if StimuliLibrary.moving movementQueue answers || !answers.finishedReached then
        lib.hostDataOfHijackedProtocol
      else none := by
  have h := congrArg (fun out => out.2.hijacked)
    (lib.continueHijackedProtocol_playback heap movementQueue answers)
  refine h.trans ?_
  rw [Playback.continueBound]
  cases StimuliLibrary.moving movementQueue answers <;> cases answers.finishedReached <;> rfl

theorem setHijackedProtocol_notMem_continueCalls (heap : Store HostData) (r front : Ref)
    (movementQueue : List Ref) (answers : Answers) :
    .setHijackedProtocol front ∉ StimuliLibrary.continueCalls heap r movementQueue answers := by
  intro hm
  rcases continueCalls_cases heap r movementQueue answers with ⟨-, -, -, hcalls⟩ | ⟨-, hcalls⟩
  · rw [hcalls] at hm
    exact absurd hm (by simp)
  · rcases hcalls _ hm with hc | ⟨answer, hc⟩ <;> exact absurd hc (by simp)

theorem setHijackedProtocol_notMem_playCalls (lib : StimuliLibrary) (front : Ref) :
    .setHijackedProtocol front ∉ lib.playCalls := by
  rw [StimuliLibrary.playCalls]
  split_ifs <;> simp

/-- A stimulus in progress, or taken in this tick, is movement-bound in it. -/
theorem boundTick_of {g : Globals} (hg : (machine env).Reachable g) {r : Ref} (answers : Answers)
    (h : g.stimuliLib.hostDataOfHijackedProtocol = some r ∨ Takes env g (.tick answers) r) :
    ∃ first, BoundTick env g answers r first := by
  obtain ⟨cs, hstep⟩ := stimuliStep_timerFunc hg answers
  have htakes : Takes env g (.tick answers) r ↔ .setHijackedProtocol r ∈ cs :=
    mem_callsBy_iff hstep rfl
  have hframe := (afterMessage_frame env g).hostDataOfHijackedProtocol
  have hbound := adapts_eq env g answers
  rw [htakes, ← hframe] at h
  have hfree : (g.afterMessage env).stimuliLib.hostDataOfHijackedProtocol = none →
      .setHijackedProtocol r ∉ cs → ¬ ((g.afterMessage env).stimuliLib.hostDataOfHijackedProtocol =
        some r ∨ .setHijackedProtocol r ∈ cs) := by
    rintro hnone hcs (hj | hm)
    · exact absurd (hnone.symm.trans hj) (by simp)
    · exact hcs hm
  have hstep' := hstep
  rw [TickStep] at hstep'
  generalize hout : ((g.timerFunc env answers).heap, (g.timerFunc env answers).stimuliLib) = out
    at hstep'
  cases hstep' with
  | hijacked r' hj bound known =>
    obtain rfl : r' = r := by
      rcases h with hj' | hm
      · exact Option.some.inj (hj.symm.trans hj')
      · rcases List.mem_cons.mp hm with hl | hm
        · exact absurd hl (by simp [loadCall])
        · exact absurd hm (setHijackedProtocol_notMem_continueCalls _ _ _ _ _)
    refine ⟨[loadCall ((g.afterMessage env).heap.deref r')], hstep, ?_, ?_, ?_⟩
    · intro c hc
      rw [List.mem_singleton.mp hc]
      exact Or.inl rfl
    · rw [hbound]
      simp [Playback.bound, Playback.candidate, StimuliLibrary.playback, hj, bound, known]
    · have hlib := congrArg (fun out => out.2.hostDataOfHijackedProtocol) hout
      refine hlib.trans ?_
      rw [continueHijackedProtocol_hijacked, StimuliLibrary.look_hostDataOfHijackedProtocol, hj]
  | take front rest free queue bound known =>
    obtain rfl : front = r := by
      rcases h with hj' | hm
      · exact absurd (free.symm.trans hj') (by simp)
      · simp only [List.mem_cons, loadCall, reduceCtorEq, false_or,
          setHijackedProtocol_notMem_continueCalls, or_false, Call.setHijackedProtocol.injEq] at hm
        exact hm.symm
    refine ⟨[loadCall ((g.afterMessage env).heap.deref front), .setHijackedProtocol front,
      loadCall ((g.afterMessage env).heap.deref front)], hstep, ?_, ?_, ?_⟩
    · intro c hc
      simp only [List.mem_cons, List.not_mem_nil, or_false] at hc
      rcases hc with rfl | rfl | rfl
      · exact Or.inl rfl
      · exact Or.inr rfl
      · exact Or.inl rfl
    · rw [hbound]
      simp [Playback.bound, Playback.candidate, StimuliLibrary.playback, free, queue, bound]
    · have hlib := congrArg (fun out => out.2.hostDataOfHijackedProtocol) hout
      refine hlib.trans ?_
      rw [continueHijackedProtocol_hijacked, StimuliLibrary.taken_hostDataOfHijackedProtocol]
  | remainder free => exact absurd h (hfree free (setHijackedProtocol_notMem_playCalls _ _))
  | idle free => exact absurd h (hfree free List.not_mem_nil)
  | play front rest free =>
    exact absurd h (hfree free (by
      simp [loadCall, setHijackedProtocol_notMem_playCalls]))
  | pop front rest free => exact absurd h (hfree free (by simp [loadCall]))

/-- As long as nothing is cleared, the stimulus taken stays in progress. -/
theorem hijacked_of_not_clears {g : Globals} (hg : (machine env).Reachable g) {r : Ref}
    (hj : g.stimuliLib.hostDataOfHijackedProtocol = some r) (mid : List Act)
    (hmid : ∀ x ∈ (machine env).stepsFrom g mid, ¬ Clears env x.1 x.2) :
    ((machine env).runFrom g mid).stimuliLib.hostDataOfHijackedProtocol = some r := by
  induction mid generalizing g with
  | nil => exact hj
  | cons a mid ih =>
    have hstep : ((machine env).step g a).stimuliLib.hostDataOfHijackedProtocol = some r := by
      cases a with
      | tcpPush msg => exact hj
      | irPush code => exact hj
      | tick answers =>
        obtain ⟨first, hbound⟩ := boundTick_of hg answers (Or.inl hj)
        exact hbound.hijacked_of_not_clears (hmid _ List.mem_cons_self)
    exact ih (hg.step a) hstep fun x hx => hmid x (List.mem_cons_of_mem _ hx)

/-- **A movement-bound stimulus is exclusive**: in the tick that takes it and in every
later one up to the tick that clears it nothing else is played, and it is cleared only
when no movement is queued and the motor has arrived. -/
theorem bound_exclusive (pre : List Act) (taking : Answers) (r : Ref)
    (htake : Takes env ((machine env).run pre) (.tick taking) r) :
    Exclusive env ((machine env).run pre) taking ∧
      ∀ (mid : List Act) (answers : Answers),
        (∀ x ∈ (machine env).stepsFrom ((machine env).run pre) (.tick taking :: mid),
          ¬ Clears env x.1 x.2) →
        Exclusive env ((machine env).run (pre ++ .tick taking :: mid)) answers := by
  have hg := (machine env).reachable_run pre
  obtain ⟨first, hbound⟩ := boundTick_of hg taking (Or.inr htake)
  refine ⟨hbound.exclusive, ?_⟩
  intro mid answers hmid
  have hj := hbound.hijacked_of_not_clears (hmid _ List.mem_cons_self)
  have hprogress := hijacked_of_not_clears (hg.step (.tick taking)) hj mid
    fun x hx => hmid x (List.mem_cons_of_mem _ hx)
  rw [Machine.run_append, Machine.runFrom_cons]
  have hreach : (machine env).Reachable
      ((machine env).runFrom ((machine env).step ((machine env).run pre) (.tick taking)) mid) := by
    rw [← Machine.runFrom_cons, ← Machine.run_append]
    exact (machine env).reachable_run _
  obtain ⟨first', hbound'⟩ := boundTick_of hreach answers (Or.inl hprogress)
  exact hbound'.exclusive

/-- The record of a stimulus of duration 991111. -/
def boundPushed : List Act := [.tcpPush "000010.00000.000019911119010".toList]

/-- It is taken while the motor is on its way, and cleared once it has arrived. -/
theorem bound_exclusive_taken :
    Takes oneSecond ((machine oneSecond).run boundPushed) (.tick busy) 0 ∧
      Exclusive oneSecond ((machine oneSecond).run boundPushed) busy ∧
      Exclusive oneSecond ((machine oneSecond).run (boundPushed ++ [.tick busy])) arrived ∧
      Clears oneSecond ((machine oneSecond).run (boundPushed ++ [.tick busy])) (.tick arrived) := by
  have htake : Takes oneSecond ((machine oneSecond).run boundPushed) (.tick busy) 0 := by
    decide +kernel
  have hexclusive := bound_exclusive boundPushed busy 0 htake
  exact ⟨htake, hexclusive.1, hexclusive.2 [] arrived (by decide +kernel), by decide +kernel⟩

/-! ### Instant stimuli -/

/-- The tick loads the `HostData` and next calls `playStimuli`, for the sound of its
stimulus and for its duration. -/
def StartsAtOnce (env : Env) (g : Globals) (answers : Answers) (d : HostData) : Prop :=
  ∃ sound : Sound, pathToAudio d.stimulusNr = some sound.path ∧
    [loadCall d, .playStimuli (some sound) (env.length sound.path) d.stimulusDuration 0] <:+:
      (callsBy env g (.tick answers)).filter Call.isMethod

/-- The members `playStimuli` finds for a stimulus popped and loaded. -/
theorem playCalls_loadedFront (files : Files) (heap : Store HostData) (lib : StimuliLibrary)
    {front : Ref} {path : String} (h : pathToAudio (heap.deref front).stimulusNr = some path)
    (rest : List Ref) :
    ∃ sound : Sound, sound.path = path ∧
      [.playStimuli (some sound) (files.length path) (heap.deref front).stimulusDuration 0] <+:
        (lib.loadedFront files heap front rest).playCalls := by
  obtain ⟨sound, haudio, -, hpath⟩ := StimuliLibrary.bLoadHostData_audio files
    ((lib.look files heap front).popFront front rest) h
  have haudio' : (lib.loadedFront files heap front rest).audio = some sound := haudio
  refine ⟨sound, hpath, ?_⟩
  rw [StimuliLibrary.playCalls, haudio',
    StimuliLibrary.loadedFront_audioFileLengthMs files heap lib h,
    StimuliLibrary.loadedFront_uiDesiredDurationMs,
    StimuliLibrary.loadedFront_dFractionOfAudioFileLeftToPlay]
  exact List.prefix_append [_] _

theorem afterMessage_instant {g : Globals} {msg : Str} (hmsg : g.tcpQueue = [msg])
    (hne : msg ≠ []) (hs : (decodeHostData env.pow msg 0).stimQueued = false) :
    (g.afterMessage env).stimuliLib.stimuliQueue = [g.heap.next] ∧
      (g.afterMessage env).heap.deref g.heap.next = decodeHostData env.pow msg 0 := by
  have hm : g.message = msg := by rw [message, hmsg]; rfl
  have hi := afterMessage_of_ne_nil env (g := g) (hm ▸ hne)
  rw [hm] at hi
  refine ⟨?_, ?_⟩
  · rw [hi.stimuliLib]
    exact if_neg (by simp [hs])
  · rw [hi.heap]
    exact Store.deref_next _ _

/-- With no movement-bound stimulus in progress it is popped, loaded and played. -/
theorem startsAtOnce_of_free {g : Globals} (hg : (machine env).Reachable g) {d : HostData}
    (hqueue : (g.afterMessage env).stimuliLib.stimuliQueue = [g.heap.next])
    (hderef : (g.afterMessage env).heap.deref g.heap.next = d) (ht : d.toBeTriggerd = true)
    (hd : d.stimulusDuration ≠ iPlayStimulusAsLongAsMovementsPending)
    (hfree : g.stimuliLib.hostDataOfHijackedProtocol = none) (answers : Answers) :
    StartsAtOnce env g answers d := by
  obtain ⟨cs, hstep⟩ := stimuliStep_timerFunc hg answers
  have hframe := (afterMessage_frame env g).hostDataOfHijackedProtocol
  rw [StartsAtOnce, filter_callsBy hstep]
  rw [TickStep] at hstep
  generalize ((g.timerFunc env answers).heap, (g.timerFunc env answers).stimuliLib) = out at hstep
  cases hstep with
  | hijacked r hj =>
    rw [hframe, hfree] at hj
    exact absurd hj (by simp)
  | take front rest free queue bound =>
    rw [hqueue] at queue
    obtain ⟨rfl, rfl⟩ := List.cons.inj queue
    rw [hderef] at bound
    exact absurd bound hd
  | remainder free queue =>
    rw [hqueue] at queue
    exact absurd queue (by simp)
  | idle free queue =>
    rw [hqueue] at queue
    exact absurd queue (by simp)
  | pop front rest free queue unbound untriggered =>
    rw [hqueue] at queue
    obtain ⟨rfl, rfl⟩ := List.cons.inj queue
    rw [hderef, ht] at untriggered
    exact absurd untriggered (by simp)
  | play front rest free queue unbound triggered known =>
    rw [hqueue] at queue
    obtain ⟨rfl, rfl⟩ := List.cons.inj queue
    obtain ⟨path, hpath⟩ := Option.isSome_iff_exists.mp known
    obtain ⟨sound, rfl, tail, hplay⟩ := playCalls_loadedFront env.toFiles (g.afterMessage env).heap
      (g.afterMessage env).stimuliLib hpath []
    rw [hderef] at hpath hplay ⊢
    refine ⟨sound, hpath, [loadCall d, .vPlayStimulusIfToBeTriggered g.heap.next], tail, ?_⟩
    rw [← hplay]
    simp only [List.cons_append, List.nil_append]

/-- Behind a movement-bound stimulus the queue stays as it is. -/
theorem stimuliQueue_of_progress {g : Globals} (hg : (machine env).Reachable g) {r : Ref}
    (hj : g.stimuliLib.hostDataOfHijackedProtocol = some r) (answers : Answers) :
    (g.timerFunc env answers).stimuliLib.stimuliQueue =
      (g.afterMessage env).stimuliLib.stimuliQueue := by
  have hj' : (g.afterMessage env).stimuliLib.playback.hijacked = some r :=
    (afterMessage_frame env g).hostDataOfHijackedProtocol.trans hj
  obtain ⟨hinv, -⟩ := (stimuliInvariant.of_reachable hg).afterMessage (known_heap hg) env
  obtain ⟨bound, known⟩ := hinv.playable r hj'
  have htick := congrArg (fun out => out.2.queue) (playback_timerFunc env g answers)
  rw [Playback.tick_hijacked _ _ _ hj' bound known, Playback.continueBound] at htick
  refine htick.trans ?_
  split_ifs <;> rfl

/-- **An instant stimulus starts at once exactly when no movement-bound one is in
progress.**  Otherwise it is left alone in the queue. -/
theorem instant_starts_iff (g : Globals) (hg : (machine env).Reachable g) (msg : Str)
    (hmsg : g.tcpQueue = [msg]) (ha : Accepted msg)
    (hs : (decodeHostData env.pow msg 0).stimQueued = false)
    (ht : (decodeHostData env.pow msg 0).toBeTriggerd = true)
    (hd : (decodeHostData env.pow msg 0).stimulusDuration ≠
      iPlayStimulusAsLongAsMovementsPending) (answers : Answers) :
    (StartsAtOnce env g answers (decodeHostData env.pow msg 0) ↔
        g.stimuliLib.hostDataOfHijackedProtocol = none) ∧
      (g.stimuliLib.hostDataOfHijackedProtocol ≠ none →
        (g.timerFunc env answers).stimuliLib.stimuliQueue = [g.heap.next]) := by
  obtain ⟨hqueue, hderef⟩ := afterMessage_instant hmsg ha.ne_nil hs
  cases hj : g.stimuliLib.hostDataOfHijackedProtocol with
  | none =>
    exact ⟨iff_of_true (startsAtOnce_of_free hg hqueue hderef ht hd hj answers) rfl,
      fun h => absurd rfl h⟩
  | some r =>
    obtain ⟨first, hbound⟩ := boundTick_of hg answers (Or.inl hj)
    refine ⟨iff_of_false ?_ (by simp), ?_⟩
    · rintro ⟨sound, -, hplay⟩
      have hmem : .playStimuli (some sound) (env.length sound.path)
          (decodeHostData env.pow msg 0).stimulusDuration 0 ∈
            (callsBy env g (.tick answers)).filter Call.isMethod := hplay.subset (by simp)
      exact absurd (hbound.exclusive.silent _ (List.mem_filter.mp hmem).1) (by simp [plays])
    · intro _
      rw [stimuliQueue_of_progress hg hj answers, hqueue]

/-- A movement-bound stimulus is in progress when the record of an instant one comes. -/
def instantPushed : Globals :=
  (machine oneSecond).run (boundPushed ++ [.tick busy,
    .tcpPush "000010.00000.000020005009011".toList])

theorem instant_not_started : ∃ msg, (machine oneSecond).Reachable instantPushed ∧
    instantPushed.tcpQueue = [msg] ∧ Accepted msg ∧
    (decodeHostData oneSecond.pow msg 0).stimQueued = false ∧
    (decodeHostData oneSecond.pow msg 0).toBeTriggerd = true ∧
    (decodeHostData oneSecond.pow msg 0).stimulusDuration ≠
      iPlayStimulusAsLongAsMovementsPending ∧
    ¬ StartsAtOnce oneSecond instantPushed busy (decodeHostData oneSecond.pow msg 0) := by
  refine ⟨"000010.00000.000020005009011".toList, (machine oneSecond).reachable_run _, rfl,
    by decide +kernel, by decide +kernel, by decide +kernel, by decide +kernel, ?_⟩
  rintro ⟨sound, -, hplay⟩
  have hnone : ∀ c ∈ (callsBy oneSecond instantPushed (.tick busy)).filter Call.isMethod,
      plays c = false := by decide +kernel
  exact absurd (hnone _ (hplay.subset (List.mem_cons_of_mem _ List.mem_cons_self)))
    (by simp [plays])

theorem instant_starts_free :
    let msg := "000010.00000.000020005009011".toList
    StartsAtOnce oneSecond ((machine oneSecond).run [.tcpPush msg]) busy
      (decodeHostData oneSecond.pow msg 0) :=
  (instant_starts_iff ((machine oneSecond).run [.tcpPush "000010.00000.000020005009011".toList])
    ((machine oneSecond).reachable_run _) _ rfl (by decide +kernel) (by decide +kernel)
    (by decide +kernel) (by decide +kernel) busy).1.mpr rfl

end Orbiter.Main
