import Orbiter.Machine.Ranking
import Orbiter.Main.Events
import Orbiter.Main.Movement
import Orbiter.Main.Keys

/-!
# Coming to rest

What becomes of the loop when no message comes any more.  The work left is the movements
and stimuli that wait, the movement-bound stimulus and the remainder owed; a tick in
which the motor has arrived does some of it.

* `Playback.work_tick_le`, `Playback.work_tick_lt`: the stimuli part of a tick.
* `settling`: the whole of it as a `Machine.Ranking`.
* `comes_to_rest`: **without messages the loop comes to rest, however long the motor
  takes**, and the waiting movements are executed in their order.
* `stays_at_rest`: **a loop at rest stays there** and commands nothing.
-/

namespace Orbiter.Stimuli.Playback

open Toolbox Cxx

/-- What is left to be done: the stimuli that wait, the movement-bound one, and the last
load with the remainder it may leave. -/
def work (p : Playback) : Nat :=
  p.queue.length + (if p.hijacked.isSome then 1 else 0) +
    if p.queue ≠ [] ∨ 0.0001 < p.fraction then 1 else 0

variable (files : Files) (heap : Store HostData) {p : Playback}

theorem work_eq_zero_iff :
    p.work = 0 ↔ p.queue = [] ∧ p.hijacked = none ∧ ¬ 0.0001 < p.fraction := by
  rw [work]
  cases p.hijacked with
  | none => cases hq : p.queue <;> simp
  | some r => simp

/-- The work behind a step that leaves `queue` to wait and no movement-bound stimulus. -/
theorem work_le_of_free (h : p.hijacked = none) : p.work ≤ p.queue.length + 1 := by
  rw [work, h]
  split_ifs <;> simp at *

/-- A movement-bound stimulus stands with its own load, which leaves no remainder. -/
theorem work_load_of_hijacked (d : HostData) : (p.load files d).work ≤ p.work := by
  have hf : ¬ (0.0001 : ℚ) < (p.load files d).fraction := by
    show ¬ (0.0001 : ℚ) < 0
    norm_num
  rw [work, work]
  simp only [hf, or_false]
  refine Nat.add_le_add_left ?_ _
  by_cases hq : p.queue = []
  · rw [if_neg (show ¬ (p.load files d).queue ≠ [] from fun h => h hq)]
    exact Nat.zero_le _
  · rw [if_pos (Or.inl hq)]
    split_ifs <;> omega

theorem continueBound_work_le (moving finished : Bool) :
    (p.continueBound heap moving finished).2.work ≤ p.work := by
  rw [continueBound]
  cases moving with
  | true => exact Nat.le_refl _
  | false =>
    cases finished with
    | false => exact Nat.le_refl _
    | true =>
      show work { p with hijacked := none } ≤ p.work
      rw [work, work]
      simp

/-- Once nothing moves and the motor has arrived, the movement-bound stimulus is done. -/
theorem continueBound_work_lt (h : p.hijacked.isSome = true) :
    (p.continueBound heap false true).2.work + 1 = p.work := by
  show work { p with hijacked := none } + 1 = p.work
  rw [work, work, h]
  simp only [Option.isSome_none, Bool.false_eq_true, if_false, if_true]
  omega

theorem work_take {front : Ref} {rest : List Ref} (hq : p.queue = front :: rest)
    (d : HostData) : ({ p with hijacked := some front, queue := rest }.load files d).work ≤
      p.work := by
  refine (work_load_of_hijacked files d).trans ?_
  rw [work, work, hq]
  simp only [List.length_cons, Option.isSome_some, if_true, ne_eq, reduceCtorEq,
    not_false_eq_true, true_or]
  split_ifs <;> omega

/-- A remainder is played, and then nothing is left. -/
theorem work_tick_of_nil (ho : p.Owes) (hj : p.hijacked = none) (hq : p.queue = [])
    (moving finished : Bool) : (p.tick files heap moving finished).2.work = 0 := by
  rw [p.tick_nil files heap hj hq, work_eq_zero_iff]
  show (if 0.0001 < p.fraction then p.play files else p).queue = [] ∧ _
  by_cases hf : 0.0001 < p.fraction
  · have hne : p.fraction ≠ 0 := by
      intro h0
      rw [h0] at hf
      norm_num at hf
    rw [if_pos hf, (ho.play_eq files hne).2]
    exact ⟨hq, hj, by norm_num⟩
  · rw [if_neg hf]
    exact ⟨hq, hj, hf⟩

/-- The front of the queue is played, and leaves a remainder at most. -/
theorem work_tick_of_front (hj : p.hijacked = none) {front : Ref} {rest : List Ref}
    (hq : p.queue = front :: rest)
    (hd : (heap.deref front).stimulusDuration ≠ iPlayStimulusAsLongAsMovementsPending)
    (moving finished : Bool) : (p.tick files heap moving finished).2.work + 1 ≤ p.work := by
  rw [p.tick_front files heap hj hq hd]
  have hfree := work_le_of_free (p := { p.load files (heap.deref front) with
    queue := rest }.trigger files (heap.deref front)) (by rw [trigger_hijacked]; exact hj)
  rw [trigger_queue] at hfree
  have hwork : p.work = rest.length + 1 + 0 + 1 := by
    rw [work, hj, hq]
    rfl
  simp only at hfree ⊢
  omega

theorem work_tick_le (ho : p.Owes) (hp : p.Playable heap) (moving finished : Bool) :
    (p.tick files heap moving finished).2.work ≤ p.work := by
  cases hj : p.hijacked with
  | some r =>
    obtain ⟨hd, hs⟩ := hp r hj
    rw [p.tick_hijacked files heap hj hd hs]
    exact (continueBound_work_le heap moving finished).trans (work_load_of_hijacked files _)
  | none =>
    cases hq : p.queue with
    | nil =>
      rw [work_tick_of_nil files heap ho hj hq]
      exact Nat.zero_le _
    | cons front rest =>
      by_cases hd : (heap.deref front).stimulusDuration = iPlayStimulusAsLongAsMovementsPending
      · rw [p.tick_take files heap hj hq hd]
        exact (continueBound_work_le heap moving finished).trans (work_take files hq _)
      · exact (Nat.le_succ _).trans (work_tick_of_front files heap hj hq hd moving finished)

/-- **Once nothing moves and the motor has arrived, it does some.** -/
theorem work_tick_lt (ho : p.Owes) (hp : p.Playable heap) :
    (p.tick files heap false true).2.work ≤ p.work - 1 := by
  cases hj : p.hijacked with
  | some r =>
    obtain ⟨hd, hs⟩ := hp r hj
    rw [p.tick_hijacked files heap hj hd hs]
    have hlt := continueBound_work_lt heap (p := p.load files (heap.deref r))
      (Option.isSome_iff_exists.mpr ⟨r, hj⟩)
    have hle := work_load_of_hijacked files (p := p) (heap.deref r)
    omega
  | none =>
    cases hq : p.queue with
    | nil =>
      rw [work_tick_of_nil files heap ho hj hq]
      exact Nat.zero_le _
    | cons front rest =>
      by_cases hd : (heap.deref front).stimulusDuration = iPlayStimulusAsLongAsMovementsPending
      · rw [p.tick_take files heap hj hq hd]
        have hlt := continueBound_work_lt heap
          (p := { p with hijacked := some front, queue := rest }.load files (heap.deref front)) rfl
        have hle := work_take files hq (heap.deref front)
        omega
      · have hlt := work_tick_of_front files heap hj hq hd false true
        omega

end Orbiter.Stimuli.Playback

namespace Orbiter.Main

open Cxx Toolbox Stimuli Globals

variable {env : Env}

/-- An action that brings no message; keys may still be pressed. -/
def Act.Quiet : Act → Prop
  | .tcpPush msg => msg = []
  | _ => True

instance (a : Act) : Decidable a.Quiet :=
  match a with
  | .tcpPush msg => inferInstanceAs (Decidable (msg = []))
  | .irPush _ => .isTrue trivial
  | .tick _ => .isTrue trivial

namespace Globals

/-- The work left between two ticks: the movements that wait and what is left of the
stimuli. -/
def work (g : Globals) : Nat := g.movementQueue.length + g.stimuliLib.playback.work

/-- The motor lets a tick make progress: it has arrived when a movement waits, and it
stands still to the end of the tick when none does. -/
def progress (g : Globals) : Act → Bool
  | .tick answers =>
    if g.movementQueue = [] then answers.pendingReached && answers.finishedReached
    else answers.movementReached
  | _ => false

/-- No message waits, and the loop is where some run has led it. -/
structure Calm (env : Env) (g : Globals) : Prop where
  reachable : (machine env).Reachable g
  messages : ∀ msg ∈ g.tcpQueue, msg = []

structure AtRest (g : Globals) : Prop where
  movementQueue : g.movementQueue = []
  stimuliQueue : g.stimuliLib.stimuliQueue = []
  free : g.stimuliLib.hostDataOfHijackedProtocol = none
  fraction : g.stimuliLib.bGetIsThereAFractionLeftToPlay = false

theorem atRest_iff {g : Globals} : g.AtRest ↔ g.work = 0 := by
  rw [work, Nat.add_eq_zero_iff, Playback.work_eq_zero_iff, List.length_eq_zero_iff]
  have hf : g.stimuliLib.bGetIsThereAFractionLeftToPlay = false ↔
      ¬ 0.0001 < g.stimuliLib.playback.fraction := decide_eq_false_iff_not
  exact ⟨fun h => ⟨h.1, h.2, h.3, hf.mp h.4⟩, fun h => ⟨h.1, h.2.1, h.2.2.1, hf.mpr h.2.2.2⟩⟩

/-- The work is bounded by the lengths of the two queues. -/
theorem work_le (g : Globals) :
    g.work ≤ g.movementQueue.length + g.stimuliLib.stimuliQueue.length + 2 := by
  have hq : g.stimuliLib.playback.queue = g.stimuliLib.stimuliQueue := rfl
  rw [work, Playback.work, hq]
  split_ifs <;> omega

theorem drain_eq_nil {queue : List Str} (h : ∀ msg ∈ queue, msg = []) : drain queue [] = [] := by
  induction queue with
  | nil => rfl
  | cons front queue ih =>
    obtain rfl := h front List.mem_cons_self
    exact ih fun msg hmsg => h msg (List.mem_cons_of_mem _ hmsg)

variable {g : Globals}

theorem Calm.message (h : g.Calm env) : g.message = [] := drain_eq_nil h.messages

/-- Between calm ticks the movements only leave their queue, in their order. -/
theorem Calm.movements (h : g.Calm env) (answers : Answers) :
    (g.timerFunc env answers).executed ++ (g.timerFunc env answers).movementQueue =
        g.executed ++ g.movementQueue ∧
      ((g.timerFunc env answers).movementQueue = g.movementQueue ∧
          (g.movementQueue ≠ [] → answers.movementReached = false) ∨
        (g.timerFunc env answers).movementQueue.length + 1 = g.movementQueue.length) := by
  have hm := h.message
  have hqueue : (g.afterMessage env).movementQueue = g.movementQueue := by
    rw [afterMessage_of_nil env hm]
  rcases (movementInvariant.of_reachable h.reachable).tickMoves env answers with
    ⟨-, he, hq, hbusy⟩ | ⟨hi, -, -⟩ | ⟨-, front, he, hq, -⟩
  · rw [hqueue] at hq
    exact ⟨by rw [he, hq], Or.inl ⟨hq, fun hne => (hbusy (Or.inr hne)).1⟩⟩
  · exact absurd hm hi.1
  · rw [hqueue] at hq
    exact ⟨by rw [he, hq, List.append_assoc]; rfl, Or.inr (by rw [hq, List.length_cons])⟩

theorem Calm.step (h : g.Calm env) {a : Act} (ha : a.Quiet) : (Main.step env g a).Calm env := by
  refine ⟨h.reachable.step a, ?_⟩
  cases a with
  | tcpPush msg =>
    intro msg' hmsg
    rcases List.mem_append.mp hmsg with hmsg | hmsg
    · exact h.messages msg' hmsg
    · rw [List.mem_singleton.mp hmsg]
      exact ha
  | irPush code => exact h.messages
  | tick answers =>
    intro msg hmsg
    have hnil : (Main.step env g (.tick answers)).tcpQueue = [] := timerFunc_tcpQueue env g answers
    rw [hnil] at hmsg
    exact absurd hmsg (by simp)

theorem Calm.playback (h : g.Calm env) (answers : Answers) :
    (g.timerFunc env answers).stimuliLib.playback =
      (g.stimuliLib.playback.tick env.toFiles g.heap
        (StimuliLibrary.moving (g.timerFunc env answers).movementQueue answers)
        answers.finishedReached).2 := by
  have ht := congrArg Prod.snd (playback_timerFunc env g answers)
  rw [afterMessage_of_nil env h.message] at ht
  exact ht

end Globals

/-- **The work left never grows without a message**, and a tick in which the motor has
arrived does some of it. -/
def settling (env : Env) :
    (machine env).Ranking (Calm env) (fun _ a => a.Quiet) progress where
  rank := work
  keep _ _ h ha := h.step ha
  le := by
    intro g a h ha
    cases a with
    | tcpPush msg => exact Nat.le_refl _
    | irPush code => exact Nat.le_refl _
    | tick answers =>
      obtain ⟨ho, hp⟩ := stimuliInvariant.of_reachable h.reachable
      have hstimuli := Playback.work_tick_le env.toFiles g.heap ho hp
        (StimuliLibrary.moving (g.timerFunc env answers).movementQueue answers)
        answers.finishedReached
      rw [← h.playback] at hstimuli
      have hmovements := (h.movements answers).2
      show (g.timerFunc env answers).work ≤ g.work
      rw [work, work]
      rcases hmovements with ⟨hq, -⟩ | hq
      · rw [hq]
        omega
      · omega
  lt := by
    intro g a h ha hp
    cases a with
    | tcpPush msg => exact absurd hp (by simp [progress])
    | irPush code => exact absurd hp (by simp [progress])
    | tick answers =>
      obtain ⟨ho, hplay⟩ := stimuliInvariant.of_reachable h.reachable
      show (g.timerFunc env answers).work ≤ g.work - 1
      rw [work, work]
      rcases (h.movements answers).2 with ⟨hq, hbusy⟩ | hq
      · by_cases hnil : g.movementQueue = []
        · rw [progress, if_pos hnil, Bool.and_eq_true] at hp
          have hstimuli := Playback.work_tick_lt env.toFiles g.heap ho hplay
          have hmoving : StimuliLibrary.moving (g.timerFunc env answers).movementQueue answers =
              false := by
            rw [hq, hnil, StimuliLibrary.moving, hp.1]
            rfl
          rw [h.playback, hmoving, hp.2, hq, hnil]
          simpa using hstimuli
        · rw [progress, if_neg hnil, hbusy hnil] at hp
          exact absurd hp (by simp)
      · have hstimuli := Playback.work_tick_le env.toFiles g.heap ho hplay
          (StimuliLibrary.moving (g.timerFunc env answers).movementQueue answers)
          answers.finishedReached
        rw [← h.playback] at hstimuli
        omega

theorem executed_append_calm {g : Globals} (h : g.Calm env) {acts : List Act}
    (hq : ∀ a ∈ acts, a.Quiet) :
    ((machine env).runFrom g acts).executed ++ ((machine env).runFrom g acts).movementQueue =
      g.executed ++ g.movementQueue := by
  induction acts generalizing g with
  | nil => rfl
  | cons a acts ih =>
    have ha := hq a List.mem_cons_self
    have hstep : (step env g a).executed ++ (step env g a).movementQueue =
        g.executed ++ g.movementQueue := by
      cases a with
      | tcpPush msg => rfl
      | irPush code => rfl
      | tick answers => exact (h.movements answers).1
    rw [← hstep]
    exact ih (h.step ha) fun a' ha' => hq a' (List.mem_cons_of_mem _ ha')

/-- **Without messages the loop comes to rest**: as many ticks in which the motor lets it
make progress as there are movements and stimuli waiting, and two more, whatever happens
in between; and the movements that waited are executed in their order. -/
theorem comes_to_rest (g : Globals) (hg : (machine env).Reachable g)
    (hm : ∀ msg ∈ g.tcpQueue, msg = []) (acts : List Act) (hq : ∀ a ∈ acts, a.Quiet)
    (hp : g.movementQueue.length + g.stimuliLib.stimuliQueue.length + 2 ≤
      (machine env).countFrom progress g acts) :
    AtRest ((machine env).runFrom g acts) ∧
      ((machine env).runFrom g acts).executed = g.executed ++ g.movementQueue := by
  have hcalm : g.Calm env := ⟨hg, hm⟩
  have hrest : AtRest ((machine env).runFrom g acts) :=
    atRest_iff.mpr ((settling env).rank_eq_zero hcalm
      (Machine.alwaysFrom_of_forall (fun a ha _ => hq a ha) g) ((work_le g).trans hp))
  refine ⟨hrest, ?_⟩
  rw [← executed_append_calm hcalm hq, hrest.movementQueue, List.append_nil]

/-- One movement runs, two wait, the second stimulus is movement-bound and a third waits. -/
def underWay : Globals := (machine oneSecond).run
  [.tcpPush "001010.00090.000010025009011".toList, .tick busy,
    .tcpPush "001010.00090.000019911119011".toList, .tick busy,
    .tcpPush "002010.00090.000010025009011".toList, .tick busy]

theorem comes_to_rest_underWay :
    let acts : List Act := [.tick arrived, .irPush "KEY_1".toList, .tick busy, .tick arrived,
      .tick arrived, .tcpPush [], .tick arrived, .tick busy, .tick arrived]
    AtRest ((machine oneSecond).runFrom underWay acts) ∧
      ((machine oneSecond).runFrom underWay acts).executed =
        underWay.executed ++ underWay.movementQueue :=
  comes_to_rest underWay ((machine oneSecond).reachable_run _) (by decide +kernel) _
    (by decide) (by decide +kernel)

/-! ### At rest -/

theorem calls_processInfrared_noKey (r : Remote) :
    (r.processInfrared "xx".toList).calls = r.calls := by
  have hkey : r.recognise "xx".toList = none := rfl
  rw [Remote.processInfrared_eq, hkey]
  split_ifs <;> rfl

theorem processStimuli_atRest {lib : StimuliLibrary} (free : lib.hostDataOfHijackedProtocol = none)
    (queue : lib.stimuliQueue = []) (fraction : lib.bGetIsThereAFractionLeftToPlay = false)
    (files : Files) (heap : Store HostData) (movementQueue : List Ref) (answers : Answers) :
    lib.processStimuli files heap movementQueue answers = (heap, lib.updateFSystem) := by
  have hcheck : lib.updateFSystem.bIsStimulusToPlayAsLongAsMovementsPending files heap =
      (false, lib.updateFSystem) := by
    rw [StimuliLibrary.bIsStimulusToPlayAsLongAsMovementsPending,
      StimuliLibrary.updateFSystem_hostDataOfHijackedProtocol, free,
      StimuliLibrary.updateFSystem_stimuliQueue, queue]
  have hfraction : lib.updateFSystem.bGetIsThereAFractionLeftToPlay = false := fraction
  have hqueue : lib.updateFSystem.stimuliQueue = [] := queue
  simp [StimuliLibrary.processStimuli, StimuliLibrary.bAdaptStimulusParametersDueToHijacking,
    hcheck, hfraction, hqueue]

/-- **A tick at rest** updates FMOD and does nothing else, but for the keys. -/
theorem timerFunc_atRest (env : Env) {g : Globals} (h : g.AtRest) (hm : g.message = [])
    (answers : Answers) :
    g.timerFunc env answers = { g with
      irQueue := []
      tcpQueue := []
      stimuliLib := g.stimuliLib.updateFSystem
      remote := g.remote.processInfrared g.code } := by
  have hmovement : g.afterMovement env answers = { g with irQueue := [], tcpQueue := [] } := by
    rw [afterMovement, afterMessage_of_nil env hm, processMovement, if_pos h.movementQueue]
  have hrun : g.timerFunc env answers =
      (let g' := (g.afterMovement env answers).processStimuli env answers
      { g' with remote := g'.remote.processInfrared g.code }) := rfl
  rw [hrun, hmovement, Globals.processStimuli]
  simp only [processStimuli_atRest h.free h.stimuliQueue h.fraction]

/-- An action that brings neither a message nor a key. -/
def Act.Silent : Act → Prop
  | .tcpPush msg => msg = []
  | .irPush _ => False
  | .tick _ => True

instance (a : Act) : Decidable a.Silent :=
  match a with
  | .tcpPush msg => inferInstanceAs (Decidable (msg = []))
  | .irPush _ => .isFalse id
  | .tick _ => .isTrue trivial

def Act.isTick : Act → Bool
  | .tick _ => true
  | _ => false

/-- **A loop at rest stays at rest** when neither messages nor keys come, whatever the motor
answers: the motor is told nothing, no movement is executed, no `HostData` changes, and FMOD
is updated once a tick and otherwise left alone. -/
theorem stays_at_rest (env : Env) (g : Globals) (h : g.AtRest) (hm : ∀ msg ∈ g.tcpQueue, msg = [])
    (hk : g.irQueue = []) (acts : List Act) (hs : ∀ a ∈ acts, a.Silent) :
    AtRest ((machine env).runFrom g acts) ∧
      ((machine env).runFrom g acts).remote.calls = g.remote.calls ∧
      ((machine env).runFrom g acts).executed = g.executed ∧
      ((machine env).runFrom g acts).heap = g.heap ∧
      ((machine env).runFrom g acts).stimuliLib = g.stimuliLib.log
        (List.replicate (acts.countP Act.isTick) (.systemUpdate g.stimuliLib.fsystem)) := by
  induction acts generalizing g with
  | nil => exact ⟨h, rfl, rfl, rfl, by simp [StimuliLibrary.log]⟩
  | cons a acts ih =>
    have hs' : ∀ a' ∈ acts, a'.Silent := fun a' ha' => hs a' (List.mem_cons_of_mem _ ha')
    cases a with
    | irPush code => exact (hs (.irPush code) List.mem_cons_self).elim
    | tcpPush msg =>
      obtain rfl : msg = [] := hs (.tcpPush msg) List.mem_cons_self
      refine ih (step env g (.tcpPush [])) ⟨h.1, h.2, h.3, h.4⟩ ?_ hk hs'
      intro msg hmsg
      rcases List.mem_append.mp hmsg with hmsg | hmsg
      · exact hm msg hmsg
      · exact List.mem_singleton.mp hmsg
    | tick answers =>
      have hcode : g.code = "xx".toList := by rw [Globals.code, hk]; rfl
      have htick := timerFunc_atRest env h (drain_eq_nil hm) answers
      have hrest : (g.timerFunc env answers).AtRest := by
        rw [htick]
        exact ⟨h.1, h.2, h.3, h.4⟩
      have hcalls : (g.timerFunc env answers).remote.calls = g.remote.calls := by
        rw [htick, hcode]
        exact calls_processInfrared_noKey g.remote
      have hexecuted : (g.timerFunc env answers).executed = g.executed := by rw [htick]
      have hheap : (g.timerFunc env answers).heap = g.heap := by rw [htick]
      have hlib : (g.timerFunc env answers).stimuliLib = g.stimuliLib.updateFSystem := by
        rw [htick]
      obtain ⟨hr, hc, he, hh, hl⟩ :=
        ih (g.timerFunc env answers) hrest (by rw [htick]; simp) (by rw [htick]) hs'
      refine ⟨hr, hc.trans hcalls, he.trans hexecuted, hh.trans hheap, hl.trans ?_⟩
      rw [hlib, List.countP_cons_of_pos rfl, List.replicate_succ]
      simp [StimuliLibrary.log, StimuliLibrary.updateFSystem]

/-- Its one movement is done, and so is its stimulus. -/
def oneDone : Globals :=
  (machine oneSecond).run [.tcpPush "001010.00090.000010010009011".toList, .tick busy]

theorem stays_at_rest_oneDone :
    AtRest ((machine oneSecond).runFrom oneDone [.tick arrived, .tick busy]) ∧
    ((machine oneSecond).runFrom oneDone [.tick arrived, .tick busy]).remote.calls =
      oneDone.remote.calls := by
  have h := stays_at_rest oneSecond oneDone ⟨by decide +kernel, by decide +kernel,
    by decide +kernel, by decide +kernel⟩ (by decide +kernel) (by decide +kernel)
    [.tick arrived, .tick busy] (by decide)
  exact ⟨h.1, h.2.1⟩

end Orbiter.Main
