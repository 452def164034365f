import Orbiter.Main.Starts
import Orbiter.Stimuli.Heard

/-!
# Stimuli that are not to be triggered

A movement-only message carries a stimulus that is not to be triggered.  Two runs are
compared, one with its stimulus part and one without: whether the same is heard.

* `Globals.timerFuncWithoutStimulus`: the tick without the stimulus part of its message.
* `alike_finish`: behind the message both ticks do the same, up to the stimulus itself.
* `inert_stimulus`: **the stimulus is not heard** as long as no tick finds it at the front
  with something to disturb.
-/

namespace Orbiter.Main

open Cxx Toolbox Stimuli Globals

variable {env : Env}

namespace Globals

variable (env : Env) (g : Globals)

/-- The protocol interpretation without its stimulus part. -/
def interpretMovement (hostDataRaw : Str) : Globals :=
  if hostDataRaw = [] then g
  else
    let hostData := decodeHostData env.pow hostDataRaw 0
    let r := g.heap.next
    let g := { g with heap := g.heap.alloc hostData, decoded := g.decoded ++ [hostDataRaw] }
    g.queueMovement hostData r

def finish (answers : Answers) (code : Str) : Globals :=
  let g := (g.processMovement answers.movementReached).processStimuli env answers
  { g with remote := g.remote.processInfrared code }

/-- The tick without the stimulus part of its message. -/
def timerFuncWithoutStimulus (answers : Answers) : Globals :=
  ({ g with irQueue := [], tcpQueue := [] }.interpretMovement env g.message).finish env answers
    (drain g.irQueue "xx".toList)

def withStimuli (lib : StimuliLibrary) (skip : Bool) (pushed : List HostData) : Globals :=
  { g with stimuliLib := lib, stimuliSkip := skip, stimuliPushed := pushed }

/-! ### The stimuli do not reach the rest -/

theorem withStimuli_processMovement (lib : StimuliLibrary) (skip : Bool) (pushed : List HostData)
    (reached : Bool) : (g.withStimuli lib skip pushed).processMovement reached =
      (g.processMovement reached).withStimuli lib skip pushed := by
  cases hq : g.movementQueue with
  | nil => simp only [processMovement, withStimuli, hq, if_true]
  | cons front rest =>
    simp only [processMovement, vProcessMovement, withStimuli, hq, reduceCtorEq, if_false]
    split_ifs
    · rfl
    · rfl
    · rw [hq]

/-- The message in a library: its stimulus is queued, or takes the place of the queue. -/
def receiveStimulus (raw : Str) (lib : StimuliLibrary) : StimuliLibrary :=
  if raw = [] then lib
  else if (decodeHostData env.pow raw 0).stimQueued then
    { lib with stimuliQueue := lib.stimuliQueue ++ [g.heap.next] }
  else { lib with stimuliQueue := [g.heap.next] }

theorem withStimuli_interpretProtocol (lib : StimuliLibrary) (skip : Bool)
    (pushed : List HostData) (raw : Str) :
    ∃ skip' pushed', (g.withStimuli lib skip pushed).interpretProtocol env raw =
      (g.interpretProtocol env raw).withStimuli (g.receiveStimulus env raw lib) skip' pushed' := by
  by_cases hraw : raw = []
  · exact ⟨skip, pushed, by rw [interpretProtocol, receiveStimulus, interpretProtocol,
      if_pos hraw, if_pos hraw, if_pos hraw]⟩
  · rw [interpretProtocol, receiveStimulus, interpretProtocol, if_neg hraw, if_neg hraw,
      if_neg hraw]
    generalize decodeHostData env.pow raw 0 = d
    refine ⟨!d.stimQueued, pushed ++ [d], ?_⟩
    cases hm : d.movQueued <;> cases hs : d.stimQueued <;>
      simp [queueStimulus, queueMovement, withStimuli, hm, hs]

theorem interpretProtocol_withStimuli (raw : Str) :
    ∃ skip pushed, g.interpretMovement env raw =
      (g.interpretProtocol env raw).withStimuli g.stimuliLib skip pushed := by
  by_cases hraw : raw = []
  · exact ⟨g.stimuliSkip, g.stimuliPushed,
      by rw [interpretMovement, interpretProtocol, if_pos hraw, if_pos hraw]; rfl⟩
  · rw [interpretMovement, interpretProtocol, if_neg hraw, if_neg hraw]
    generalize decodeHostData env.pow raw 0 = d
    refine ⟨g.stimuliSkip, g.stimuliPushed, ?_⟩
    cases hm : d.movQueued <;> cases hs : d.stimQueued <;>
      simp [queueStimulus, queueMovement, withStimuli, hm, hs]

theorem interpretMovement_stimuliLib (raw : Str) :
    (g.interpretMovement env raw).stimuliLib = g.stimuliLib := by
  obtain ⟨skip, pushed, hsame⟩ := g.interpretProtocol_withStimuli env raw
  rw [hsame]
  rfl

end Globals

/-! ### Two runs -/

/-- The second run is the first without the waiting stimulus `r`, which is not to be
triggered. -/
structure Alike (r : Ref) (g g' : Globals) : Prop where
  same : ∃ skip pushed, g' = g.withStimuli g'.stimuliLib skip pushed
  without : Without r g.stimuliLib.playback g'.stimuliLib.playback g.stimuliLib.audioPath
    g'.stimuliLib.audioPath
  lt : r < g.heap.next
  inert : (g.heap.deref r).toBeTriggerd = false

/-- The step finds the stimulus `r` with something to disturb: no movement-bound stimulus
is in progress, `r` is at the front, and a remainder is owed, or another stimulus waits
behind `r`, or `r` is movement-bound itself. -/
def Disturbs (env : Env) (r : Ref) (g : Globals) : Act → Prop
  | .tick _ => Disturbed (g.afterMessage env).heap r (g.afterMessage env).stimuliLib.playback
  | _ => False

instance (env : Env) (r : Ref) (g : Globals) (a : Act) : Decidable (Disturbs env r g a) := by
  cases a <;> unfold Disturbs <;> infer_instance

def heardBetween (lib lib' : StimuliLibrary) : List Heard :=
  (lib.eventsBetween lib').filterMap heard

/-- The globals with the outcome of their stimuli step. -/
def Globals.stimulated (env : Env) (g : Globals) (answers : Answers) (code : Str)
    (lib : StimuliLibrary) : Globals :=
  let m := g.processMovement answers.movementReached
  let out := lib.processStimuli env.toFiles m.heap m.movementQueue answers
  { m with heap := out.1, stimuliLib := out.2, remote := m.remote.processInfrared code }

theorem finish_withStimuli (env : Env) (g : Globals) (answers : Answers) (code : Str)
    (lib : StimuliLibrary) (skip : Bool) (pushed : List HostData) :
    (g.withStimuli lib skip pushed).finish env answers code =
      (g.stimulated env answers code lib).withStimuli
        (g.stimulated env answers code lib).stimuliLib skip pushed := by
  rw [finish, withStimuli_processMovement]
  rfl

theorem finish_eq_stimulated (env : Env) (g : Globals) (answers : Answers) (code : Str) :
    g.finish env answers code = g.stimulated env answers code g.stimuliLib := by
  have hframe := (processMovement_frame (g := g) answers.movementReached).stimuliLib
  rw [stimulated, ← hframe]
  rfl

def movesIn (g : Globals) (answers : Answers) : Bool :=
  StimuliLibrary.moving (g.processMovement answers.movementReached).movementQueue answers

theorem stimulated_playback (env : Env) (g : Globals) (answers : Answers) (code : Str)
    (lib : StimuliLibrary) :
    ((g.stimulated env answers code lib).heap,
        (g.stimulated env answers code lib).stimuliLib.playback) =
      lib.playback.tick env.toFiles g.heap (movesIn g answers) answers.finishedReached := by
  have hheap := (processMovement_frame (g := g) answers.movementReached).heap
  rw [movesIn, ← hheap, ← StimuliLibrary.processStimuli_playback]
  rfl

theorem stimulated_heard {g : Globals} {lib : StimuliLibrary} (hk : Known g.heap)
    (hp : lib.playback.Playable g.heap) (env : Env) (answers : Answers) (code : Str) :
    heardBetween lib (g.stimulated env answers code lib).stimuliLib =
        lib.playback.heard env.toFiles g.heap lib.audioPath (movesIn g answers)
          answers.finishedReached ∧
      (g.stimulated env answers code lib).stimuliLib.audioPath =
        lib.playback.tickPath g.heap lib.audioPath := by
  have hheap := (processMovement_frame (g := g) answers.movementReached).heap
  rw [movesIn, ← hheap]
  rw [← hheap] at hk hp
  exact lib.heard_processStimuli env.toFiles _ hk hp _ answers

/-- **Behind the message both runs do the same**, up to the stimulus itself. -/
theorem alike_finish {g g' : Globals} {r : Ref} (h : Alike r g g') (hk : Known g.heap)
    (hp : g.stimuliLib.playback.Playable g.heap)
    (hd : ¬ Disturbed g.heap r g.stimuliLib.playback) (answers : Answers) (code : Str) :
    Alike r (g.finish env answers code) (g'.finish env answers code) ∧
      heardBetween g'.stimuliLib (g'.finish env answers code).stimuliLib =
        heardBetween g.stimuliLib (g.finish env answers code).stimuliLib := by
  obtain ⟨skip, pushed, hsame⟩ := h.same
  have hwithout := h.without
  generalize hlib : g'.stimuliLib = lib at hsame hwithout
  subst hsame
  have hp' : lib.playback.Playable g.heap := fun s hs => hp s (hwithout.hijacked.symm.trans hs)
  have htick : Without.SameTick env.toFiles g.heap r g.stimuliLib.playback lib.playback
      g.stimuliLib.audioPath lib.audioPath (movesIn g answers) answers.finishedReached :=
    hwithout.tick hk hp h.inert hd _ _
  have hstep := stimulated_playback env g answers code g.stimuliLib
  have hstep' := stimulated_playback env g answers code lib
  obtain ⟨hheard, hpath⟩ := stimulated_heard hk hp env answers code
  obtain ⟨hheard', hpath'⟩ := stimulated_heard hk hp' env answers code
  have hfst : (g.stimulated env answers code g.stimuliLib).heap =
      (g.stimuliLib.playback.tick env.toFiles g.heap (movesIn g answers)
        answers.finishedReached).1 := congrArg Prod.fst hstep
  have hheap : (g.stimulated env answers code lib).heap =
      (g.stimulated env answers code g.stimuliLib).heap :=
    (congrArg Prod.fst hstep').trans (htick.store.trans hfst.symm)
  have hstarted : Started g.heap (g.stimulated env answers code g.stimuliLib).heap := by
    rw [hfst]
    exact Playback.started_tick _ _ _ _ _
  have hrest : g.stimulated env answers code lib =
      { g.stimulated env answers code g.stimuliLib with
        heap := (g.stimulated env answers code lib).heap
        stimuliLib := (g.stimulated env answers code lib).stimuliLib } := rfl
  rw [hheap] at hrest
  rw [finish_withStimuli, finish_eq_stimulated]
  refine ⟨⟨⟨skip, pushed, ?_⟩, ?_, ?_, ?_⟩, ?_⟩
  · rw [hrest]
    rfl
  · have hwithout' := htick.without
    rw [← hstep, ← hstep', ← hpath, ← hpath'] at hwithout'
    exact hwithout'
  · rw [hstarted.next]
    exact h.lt
  · rcases hstarted.deref r with hr | hr <;> rw [hr]
    exact h.inert
  · refine hheard'.trans ?_
    rw [htick.heard, ← hheard]

theorem afterMessage_receiveStimulus (env : Env) (g : Globals) :
    (g.afterMessage env).stimuliLib = g.receiveStimulus env g.message g.stimuliLib := by
  rcases playback_afterMessage env g with ⟨hm, -, hlib⟩ | ⟨hm, -, hlib⟩
  · rw [hlib, receiveStimulus, if_pos hm]
  · rw [hlib, receiveStimulus, if_neg hm]
    split_ifs <;> rfl

theorem Without.receiveStimulus {g : Globals} {r : Ref} {lib lib' : StimuliLibrary}
    (h : Without r lib.playback lib'.playback lib.audioPath lib'.audioPath)
    (hr : r < g.heap.next) (env : Env) (raw : Str) :
    Without r (g.receiveStimulus env raw lib).playback (g.receiveStimulus env raw lib').playback
      (g.receiveStimulus env raw lib).audioPath (g.receiveStimulus env raw lib').audioPath := by
  have hnew : [g.heap.next].filter (fun q => q ≠ r) = [g.heap.next] :=
    List.filter_cons_of_pos (by simpa using hr.ne')
  have hleft (queue queue' : List Ref) :
      (¬ { lib.playback with queue := queue }.Owed ∧
        ¬ { lib'.playback with queue := queue' }.Owed) ∨
      SameLeft { lib.playback with queue := queue } { lib'.playback with queue := queue' }
        lib.audioPath lib'.audioPath := by
    rcases h.left with hnone | hsame
    · exact Or.inl hnone
    · exact Or.inr ⟨hsame.length, hsame.desired, hsame.fraction, hsame.path⟩
  rw [Globals.receiveStimulus, Globals.receiveStimulus]
  split_ifs with hraw hqueued
  · exact h
  · refine ⟨h.hijacked, ?_, hleft _ _⟩
    show lib'.playback.queue ++ _ = (lib.playback.queue ++ _).filter _
    rw [List.filter_append, ← h.queue, hnew]
  · exact ⟨h.hijacked, hnew.symm, hleft _ _⟩

theorem alike_afterMessage {g g' : Globals} {r : Ref} (h : Alike r g g') (env : Env) :
    Alike r (g.afterMessage env) (g'.afterMessage env) := by
  obtain ⟨skip, pushed, hsame⟩ := h.same
  have hwithout := h.without
  generalize g'.stimuliLib = lib at hsame hwithout
  subst hsame
  obtain ⟨skip', pushed', hmsg⟩ :=
    { g with irQueue := [], tcpQueue := [] }.withStimuli_interpretProtocol env lib skip pushed
      g.message
  have hmsg' : (g.withStimuli lib skip pushed).afterMessage env =
      (g.afterMessage env).withStimuli (g.receiveStimulus env g.message lib) skip' pushed' := hmsg
  have hheap : (g.afterMessage env).heap = g.heap ∨
      ∃ d, (g.afterMessage env).heap = g.heap.alloc d := by
    rcases playback_afterMessage env g with ⟨-, hheap, -⟩ | ⟨-, hheap, -⟩
    · exact Or.inl hheap
    · exact Or.inr ⟨_, hheap⟩
  rw [hmsg']
  refine ⟨⟨skip', pushed', rfl⟩, ?_, ?_, ?_⟩
  · rw [afterMessage_receiveStimulus]
    exact Without.receiveStimulus hwithout h.lt env g.message
  · rcases hheap with hheap | ⟨d, hheap⟩ <;> rw [hheap]
    · exact h.lt
    · rw [Store.next_alloc]
      exact Nat.lt_succ_of_lt h.lt
  · rcases hheap with hheap | ⟨d, hheap⟩ <;> rw [hheap]
    · exact h.inert
    · rw [Store.deref_alloc_of_lt h.lt]
      exact h.inert

/-! ### From the message on -/

theorem lt_next_of_mem_stimuliQueue {g : Globals} (hg : (machine env).Reachable g) {q : Ref}
    (hq : q ∈ g.stimuliLib.stimuliQueue) : q < g.heap.next := by
  obtain ⟨acts, rfl⟩ := hg
  have hperm := perm_stimuli env acts
  apply List.mem_range.mp
  apply hperm.subset
  exact List.mem_append_left _ (List.mem_append_right _ hq)

theorem alike_message {g : Globals} (hg : (machine env).Reachable g) (hm : g.message ≠ [])
    (ht : (decodeHostData env.pow g.message 0).toBeTriggerd = false)
    (hs : (decodeHostData env.pow g.message 0).stimQueued = true) :
    Alike g.heap.next (g.afterMessage env)
      ({ g with irQueue := [], tcpQueue := [] }.interpretMovement env g.message) := by
  obtain ⟨skip, pushed, hsame⟩ :=
    { g with irQueue := [], tcpQueue := [] }.interpretProtocol_withStimuli env g.message
  have hsame' : { g with irQueue := [], tcpQueue := [] }.interpretMovement env g.message =
      (g.afterMessage env).withStimuli g.stimuliLib skip pushed := hsame
  have hi := afterMessage_of_ne_nil env hm
  rw [hsame']
  refine ⟨⟨skip, pushed, rfl⟩, ?_, ?_, ?_⟩
  · rw [afterMessage_receiveStimulus, receiveStimulus, if_neg hm, if_pos hs]
    refine ⟨rfl, ?_, Or.inr ⟨rfl, rfl, rfl, rfl⟩⟩
    show g.stimuliLib.stimuliQueue = (g.stimuliLib.stimuliQueue ++ [g.heap.next]).filter _
    rw [List.filter_append, List.filter_cons_of_neg (by simp), List.filter_nil, List.append_nil,
      List.filter_eq_self.mpr]
    intro q hq
    simpa using (lt_next_of_mem_stimuliQueue hg hq).ne
  · rw [hi.heap, Store.next_alloc]
    exact Nat.lt_succ_self _
  · rw [hi.heap]
    exact (congrArg HostData.toBeTriggerd (Store.deref_next g.heap _)).trans ht

theorem heardBetween_afterMessage (env : Env) (g : Globals) (lib : StimuliLibrary) :
    heardBetween (g.afterMessage env).stimuliLib lib = heardBetween g.stimuliLib lib := by
  rw [heardBetween, heardBetween, StimuliLibrary.eventsBetween, StimuliLibrary.eventsBetween,
    afterMessage_entered]

theorem alike_tick {g g' : Globals} (hg : (machine env).Reachable g) {r : Ref}
    (h : Alike r (g.afterMessage env) g') {answers : Answers}
    (hd : ¬ Disturbs env r g (.tick answers)) :
    Alike r (g.timerFunc env answers)
        (g'.finish env answers (drain g.irQueue "xx".toList)) ∧
      heardBetween g'.stimuliLib
          (g'.finish env answers (drain g.irQueue "xx".toList)).stimuliLib =
        (eventsBy env g (.tick answers)).filterMap heard := by
  obtain ⟨hinv, hknown⟩ := (stimuliInvariant.of_reachable hg).afterMessage (known_heap hg) env
  obtain ⟨halike, hheard⟩ := alike_finish h hknown hinv.playable hd answers
    (drain g.irQueue "xx".toList)
  refine ⟨halike, hheard.trans ?_⟩
  rw [heardBetween_afterMessage]
  rfl

theorem Alike.queues {g g' : Globals} {r : Ref} (h : Alike r g g') :
    g'.tcpQueue = g.tcpQueue ∧ g'.irQueue = g.irQueue := by
  obtain ⟨skip, pushed, hsame⟩ := h.same
  rw [hsame]
  exact ⟨rfl, rfl⟩

theorem Alike.push {g g' : Globals} {r : Ref} (h : Alike r g g') {a : Act}
    (ha : ∀ answers, a ≠ .tick answers) : Alike r (step env g a) (step env g' a) := by
  obtain ⟨skip, pushed, hsame⟩ := h.same
  obtain ⟨htcp, hir⟩ := h.queues
  cases a with
  | tcpPush msg =>
    refine ⟨⟨skip, pushed, ?_⟩, h.without, h.lt, h.inert⟩
    rw [step, step, htcp, hsame]
    rfl
  | irPush code =>
    refine ⟨⟨skip, pushed, ?_⟩, h.without, h.lt, h.inert⟩
    rw [step, step, hir, hsame]
    rfl
  | tick answers => exact absurd rfl (ha answers)

theorem eventsFrom_cons (env : Env) (g : Globals) (a : Act) (acts : List Act) :
    eventsFrom env g (a :: acts) = eventsBy env g a ++ eventsFrom env (step env g a) acts := rfl

/-- Two runs from states that are alike: the same is heard. -/
theorem alike_run {g g' : Globals} (hg : (machine env).Reachable g) {r : Ref} (h : Alike r g g')
    (acts : List Act) (hd : ∀ x ∈ (machine env).stepsFrom g acts, ¬ Disturbs env r x.1 x.2) :
    (eventsFrom env g' acts).filterMap heard = (eventsFrom env g acts).filterMap heard := by
  induction acts generalizing g g' with
  | nil => rfl
  | cons a acts ih =>
    have hrest (halike : Alike r (step env g a) (step env g' a)) :
        (eventsFrom env (step env g' a) acts).filterMap heard =
          (eventsFrom env (step env g a) acts).filterMap heard :=
      ih (hg.step a) halike fun x hx => hd x (List.mem_cons_of_mem _ hx)
    rw [eventsFrom_cons, eventsFrom_cons, List.filterMap_append, List.filterMap_append]
    cases a with
    | tcpPush msg => rw [hrest (h.push (by simp)), eventsBy_tcpPush, eventsBy_tcpPush]
    | irPush code => rw [hrest (h.push (by simp)), eventsBy_irPush, eventsBy_irPush]
    | tick answers =>
      have hdisturbs : ¬ Disturbs env r g (.tick answers) := hd _ List.mem_cons_self
      obtain ⟨halike, hheard⟩ := alike_tick hg (alike_afterMessage h env) hdisturbs
      rw [← h.queues.2] at halike hheard
      rw [hrest halike, ← hheard, heardBetween_afterMessage]
      rfl

/-- The events from a tick on, when it handles its message without the stimulus part. -/
def eventsWithoutStimulus (env : Env) (g : Globals) (answers : Answers) (post : List Act) :
    List Event :=
  g.stimuliLib.eventsBetween (g.timerFuncWithoutStimulus env answers).stimuliLib ++
    eventsFrom env (g.timerFuncWithoutStimulus env answers) post

/-- **A stimulus that is not to be triggered is not heard** in any run in which no tick
finds it at the front with something to disturb: without it the same stimuli are
started and stopped, and the same remainders are played. -/
theorem inert_stimulus (pre : List Act) (answers : Answers) (post : List Act)
    (ha : Accepted ((machine env).run pre).message)
    (ht : (decodeHostData env.pow ((machine env).run pre).message 0).toBeTriggerd = false)
    (hs : (decodeHostData env.pow ((machine env).run pre).message 0).stimQueued = true)
    (hd : ∀ x ∈ (machine env).stepsFrom ((machine env).run pre) (.tick answers :: post),
      ¬ Disturbs env ((machine env).run pre).heap.next x.1 x.2) :
    (eventsWithoutStimulus env ((machine env).run pre) answers post).filterMap heard =
      (eventsFrom env ((machine env).run pre) (.tick answers :: post)).filterMap heard := by
  have hg := (machine env).reachable_run pre
  generalize (machine env).run pre = g at ha ht hs hd hg
  have hdisturbs : ¬ Disturbs env g.heap.next g (.tick answers) := hd _ List.mem_cons_self
  obtain ⟨halike, hheard⟩ := alike_tick hg (alike_message hg ha.ne_nil ht hs) hdisturbs
  have hrest := alike_run (hg.step (.tick answers)) halike post
    fun x hx => hd x (List.mem_cons_of_mem _ hx)
  rw [interpretMovement_stimuliLib] at hheard
  rw [eventsWithoutStimulus, eventsFrom_cons, List.filterMap_append, List.filterMap_append,
    ← hheard]
  exact congrArg (List.append _) hrest

/-- A movement-only record, sent when nothing else waits. -/
theorem inert_stimulus_alone :
    (eventsWithoutStimulus oneSecond ((machine oneSecond).run
      [.tcpPush "001010.00090.000020005009000".toList]) arrived [.tick arrived]).filterMap heard =
    (eventsFrom oneSecond ((machine oneSecond).run
      [.tcpPush "001010.00090.000020005009000".toList]) [.tick arrived, .tick arrived]).filterMap
        heard :=
  inert_stimulus [.tcpPush "001010.00090.000020005009000".toList] arrived [.tick arrived]
    (by decide +kernel) (by decide +kernel) (by decide +kernel) (by decide +kernel)

/-- A movement-only record comes while a remainder of half a second is owed. -/
theorem inert_swallows_remainder : ∃ pre : List Act,
    Accepted ((machine oneSecond).run pre).message ∧
    (decodeHostData oneSecond.pow ((machine oneSecond).run pre).message 0).toBeTriggerd = false ∧
    (decodeHostData oneSecond.pow ((machine oneSecond).run pre).message 0).stimQueued = true ∧
    (eventsWithoutStimulus oneSecond ((machine oneSecond).run pre) arrived []).filterMap heard ≠
      (eventsFrom oneSecond ((machine oneSecond).run pre) [.tick arrived]).filterMap heard :=
  ⟨[.tcpPush "000010.00000.000010025009011".toList, .tick arrived,
      .tcpPush "001010.00090.000020005009000".toList],
    by decide +kernel, by decide +kernel, by decide +kernel, by decide +kernel⟩

end Orbiter.Main
