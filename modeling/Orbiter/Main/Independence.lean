import Orbiter.Machine.Lockstep
import Orbiter.Main.Movement
import Orbiter.Toolbox.Grammar

/-!
# What does not depend on what

Three things share the loop: the movements, the stimuli and the keys of the remote
control.  Two runs that differ in one of them are laid side by side.

* `keys_never_heard`: **the keys change nothing but the remote control**; movements and
  stimuli go on as if none had been pressed.
* `stimuli_never_move`: **the stimulus part of the messages and the sound files do not
  reach the motor.**
-/

namespace Orbiter.Main

open Cxx Toolbox Stimuli Globals

/-! ### The keys -/

def Act.isIrPush : Act → Bool
  | .irPush _ => true
  | _ => false

namespace Globals

def withoutKeys (g : Globals) : Globals := { g with irQueue := [], remote := Remote.init }

variable (env : Env) (g : Globals)

theorem withoutKeys_interpretProtocol (raw : Str) : (g.interpretProtocol env raw).withoutKeys =
    g.withoutKeys.interpretProtocol env raw := by
  rw [interpretProtocol, interpretProtocol]
  split_ifs
  · rfl
  · simp only [queueMovement, queueStimulus, withoutKeys]
    split_ifs <;> rfl

theorem withoutKeys_vProcessMovement :
    g.vProcessMovement.withoutKeys = g.withoutKeys.vProcessMovement.withoutKeys := by
  have hqueue : g.withoutKeys.movementQueue = g.movementQueue := rfl
  rw [vProcessMovement, vProcessMovement, hqueue]
  cases g.movementQueue <;> rfl

theorem withoutKeys_processMovement (reached : Bool) :
    (g.processMovement reached).withoutKeys =
      (g.withoutKeys.processMovement reached).withoutKeys := by
  have hqueue : g.withoutKeys.movementQueue = g.movementQueue := rfl
  have hskip : g.withoutKeys.movementSkip = g.movementSkip := rfl
  have hfirst : g.withoutKeys.bIsFirstCall = g.bIsFirstCall := rfl
  rw [processMovement, processMovement, hqueue, hskip, hfirst]
  split_ifs
  · rfl
  · exact withoutKeys_vProcessMovement g
  · exact withoutKeys_vProcessMovement { g with bIsFirstCall := false }
  · rfl

/-- A tick does the same to the movements and the stimuli whatever the remote control is. -/
theorem withoutKeys_timerFunc (answers : Answers) : (g.timerFunc env answers).withoutKeys =
    (g.withoutKeys.timerFunc env answers).withoutKeys := by
  have hrun (g : Globals) : (g.timerFunc env answers).withoutKeys =
      ((g.afterMovement env answers).withoutKeys).processStimuli env answers := rfl
  have hmessage : (g.afterMessage env).withoutKeys = g.withoutKeys.afterMessage env := by
    rw [afterMessage, withoutKeys_interpretProtocol]
    rfl
  rw [hrun, hrun, afterMovement, afterMovement, withoutKeys_processMovement, hmessage]

end Globals

theorem blind_keys (env : Env) : (machine env).Blind withoutKeys fun a => !a.isIrPush where
  skip := by
    intro g a ha
    cases a with
    | irPush code => rfl
    | tcpPush msg => exact absurd ha (by simp [Act.isIrPush])
    | tick answers => exact absurd ha (by simp [Act.isIrPush])
  follow := by
    intro g g' a ha h
    cases a with
    | irPush code => exact absurd ha (by simp [Act.isIrPush])
    | tcpPush msg =>
      show { g.withoutKeys with tcpQueue := g.withoutKeys.tcpQueue ++ [msg] } = _
      rw [h]
      rfl
    | tick answers =>
      show (g.timerFunc env answers).withoutKeys = (g'.timerFunc env answers).withoutKeys
      rw [withoutKeys_timerFunc, withoutKeys_timerFunc env g', h]

/-- **The keys change nothing but the remote control**: two runs with the same messages and
ticks, whatever keys are pressed in between, end with the same queues, the same executed
movements and the same library, down to its calls of FMOD. -/
theorem keys_never_heard (env : Env) (acts acts' : List Act)
    (h : (acts.filter fun a => !a.isIrPush) = acts'.filter fun a => !a.isIrPush) :
    ((machine env).run acts).withoutKeys = ((machine env).run acts').withoutKeys :=
  (blind_keys env).run_eq h

/-- A sound is played while a key is pressed, or is not. -/
theorem keys_never_heard_played :
    ((machine oneSecond).run [.tcpPush "001010.00090.000010025009011".toList,
      .irPush "KEY_1".toList, .tick busy, .irPush "KEY_STOP".toList, .tick arrived]).withoutKeys =
    ((machine oneSecond).run [.tcpPush "001010.00090.000010025009011".toList, .tick busy,
      .tick arrived]).withoutKeys :=
  keys_never_heard oneSecond _ _ (by decide)

/-! ### The stimuli -/

/-- What the motor learns of a `HostData`. -/
def movement (d : HostData) : Nat × ℚ × ℚ × Bool :=
  (d.direction, d.speed, d.angularDistance, d.movQueued)

theorem Remote.startMovement_congr (r : Remote) {d d' : HostData} (h : movement d = movement d') :
    r.startMovement d = r.startMovement d' := by
  simp only [movement, Prod.mk.injEq] at h
  obtain ⟨hdirection, hspeed, hangle, -⟩ := h
  rw [startMovement, startMovement, hdirection, hspeed, hangle]

theorem movement_of_started {heap heap' : Store HostData} (h : Started heap heap') (r : Ref) :
    movement (heap'.deref r) = movement (heap.deref r) := by
  rcases h.deref r with hr | hr <;> rw [hr]
  rfl

structure SameMovements (heap heap' : Store HostData) : Prop where
  next : heap.next = heap'.next
  movement : ∀ r, movement (heap.deref r) = movement (heap'.deref r)

theorem SameMovements.alloc {heap heap' : Store HostData} (h : SameMovements heap heap')
    {d d' : HostData} (hd : Main.movement d = Main.movement d') :
    SameMovements (heap.alloc d) (heap'.alloc d') where
  next := by rw [Store.next_alloc, Store.next_alloc, h.next]
  movement r := by
    rcases lt_trichotomy r heap.next with hlt | rfl | hgt
    · rw [Store.deref_alloc_of_lt hlt, Store.deref_alloc_of_lt (by rwa [← h.next])]
      exact h.movement r
    · rw [Store.deref_next, h.next, Store.deref_next]
      exact hd
    · rw [Store.deref_of_ge (by rw [Store.next_alloc]; exact hgt),
        Store.deref_of_ge (by rw [Store.next_alloc, ← h.next]; exact hgt)]

theorem SameMovements.started {heap heap' : Store HostData} (h : SameMovements heap heap')
    {next next' : Store HostData} (hs : Started heap next) (hs' : Started heap' next') :
    SameMovements next next' where
  next := by rw [hs.next, hs'.next, h.next]
  movement r := by rw [movement_of_started hs, movement_of_started hs', h.movement r]

/-- Two strings that are no message, or two messages with the same movement part. -/
structure SameMovement (env env' : Env) (msg msg' : Str) : Prop where
  nil : msg = [] ↔ msg' = []
  movement : movement (decodeHostData env.pow msg 0) = movement (decodeHostData env'.pow msg' 0)

/-- Actions that look alike to the motor. -/
inductive MotorAlike (env env' : Env) : Act → Act → Prop
  | tcpPush {msg msg' : Str} (h : SameMovement env env' msg msg') :
      MotorAlike env env' (.tcpPush msg) (.tcpPush msg')
  | irPush (code : Str) : MotorAlike env env' (.irPush code) (.irPush code)
  | tick {answers answers' : Answers} (h : answers.movementReached = answers'.movementReached) :
      MotorAlike env env' (.tick answers) (.tick answers')

/-- Globals that look alike to the motor. -/
structure MotorView (env env' : Env) (g g' : Globals) : Prop where
  heap : SameMovements g.heap g'.heap
  tcpQueue : List.Forall₂ (SameMovement env env') g.tcpQueue g'.tcpQueue
  irQueue : g.irQueue = g'.irQueue
  movementQueue : g.movementQueue = g'.movementQueue
  movementSkip : g.movementSkip = g'.movementSkip
  bIsFirstCall : g.bIsFirstCall = g'.bIsFirstCall
  remote : g.remote = g'.remote
  executed : g.executed = g'.executed

section

variable {env env' : Env} {g g' : Globals}

theorem SameMovement.drain {queue queue' : List Str}
    (h : List.Forall₂ (SameMovement env env') queue queue') {s s' : Str}
    (hs : SameMovement env env' s s') :
    SameMovement env env' (drain queue s) (drain queue' s') := by
  induction h generalizing s s' with
  | nil => exact hs
  | cons hfront _ ih => exact ih hfront

theorem sameMovement_nil : SameMovement env env' [] [] := by
  refine ⟨Iff.rfl, ?_⟩
  rw [decodeHostData_of_not_accepted (by decide), decodeHostData_of_not_accepted (by decide)]

theorem MotorView.afterMessage (h : MotorView env env' g g') :
    MotorView env env' (g.afterMessage env) (g'.afterMessage env') := by
  have hmsg : SameMovement env env' g.message g'.message :=
    SameMovement.drain h.tcpQueue sameMovement_nil
  by_cases hm : g.message = []
  · rw [afterMessage_of_nil env hm, afterMessage_of_nil env' (hmsg.nil.mp hm)]
    exact ⟨h.heap, .nil, rfl, h.movementQueue, h.movementSkip, h.bIsFirstCall, h.remote,
      h.executed⟩
  · have hi := afterMessage_of_ne_nil env hm
    have hi' := afterMessage_of_ne_nil env' (fun hm' => hm (hmsg.nil.mpr hm'))
    have hqueued : (decodeHostData env.pow g.message 0).movQueued =
        (decodeHostData env'.pow g'.message 0).movQueued :=
      congrArg (fun m => m.2.2.2) hmsg.movement
    refine ⟨?_, ?_, ?_, ?_, ?_, ?_, ?_, ?_⟩
    · rw [hi.heap, hi'.heap]
      exact h.heap.alloc hmsg.movement
    · rw [hi.tcpQueue, hi'.tcpQueue]
      exact .nil
    · rw [hi.irQueue, hi'.irQueue]
    · rw [hi.movementQueue, hi'.movementQueue, hqueued]
      show (if _ then g.movementQueue ++ [g.heap.next] else [g.heap.next]) =
        if _ then g'.movementQueue ++ [g'.heap.next] else [g'.heap.next]
      rw [h.movementQueue, h.heap.next]
    · rw [hi.movementSkip, hi'.movementSkip, hqueued]
    · exact hi.bIsFirstCall.trans (h.bIsFirstCall.trans hi'.bIsFirstCall.symm)
    · exact hi.remote.trans (h.remote.trans hi'.remote.symm)
    · exact hi.executed.trans (h.executed.trans hi'.executed.symm)

theorem MotorView.execute (h : MotorView env env' g g') (front : Ref) (rest : List Ref) :
    MotorView env env' (g.execute front rest) (g'.execute front rest) where
  heap := h.heap
  tcpQueue := h.tcpQueue
  irQueue := h.irQueue
  movementQueue := rfl
  movementSkip := h.movementSkip
  bIsFirstCall := h.bIsFirstCall
  remote := by
    show g.remote.startMovement (g.heap.deref front) = g'.remote.startMovement (g'.heap.deref front)
    rw [h.remote, Remote.startMovement_congr _ (h.heap.movement front)]
  executed := by
    show g.executed ++ [front] = g'.executed ++ [front]
    rw [h.executed]

theorem MotorView.vProcessMovement (h : MotorView env env' g g') :
    MotorView env env' g.vProcessMovement g'.vProcessMovement := by
  rw [Globals.vProcessMovement, Globals.vProcessMovement, ← h.movementQueue]
  cases g.movementQueue with
  | nil => exact h
  | cons front rest => exact h.execute front rest

theorem MotorView.processMovement (h : MotorView env env' g g') (reached : Bool) :
    MotorView env env' (g.processMovement reached) (g'.processMovement reached) := by
  rw [Globals.processMovement, Globals.processMovement, ← h.movementQueue, ← h.movementSkip,
    ← h.bIsFirstCall]
  split_ifs
  · exact h
  · exact h.vProcessMovement
  · exact MotorView.vProcessMovement ⟨h.heap, h.tcpQueue, h.irQueue, rfl, rfl, rfl, h.remote,
      h.executed⟩
  · exact h

theorem MotorView.timerFunc (h : MotorView env env' g g') {answers answers' : Answers}
    (ha : answers.movementReached = answers'.movementReached) :
    MotorView env env' (g.timerFunc env answers) (g'.timerFunc env' answers') := by
  have hmessage := h.afterMessage
  have hmovement : MotorView env env' (g.afterMovement env answers)
      (g'.afterMovement env' answers') := by
    rw [afterMovement, afterMovement, ← ha]
    exact hmessage.processMovement _
  have hcode : drain g.irQueue "xx".toList = drain g'.irQueue "xx".toList := by rw [h.irQueue]
  refine ⟨?_, hmovement.tcpQueue, hmovement.irQueue, hmovement.movementQueue,
    hmovement.movementSkip, hmovement.bIsFirstCall, ?_, hmovement.executed⟩
  · exact hmessage.heap.started (started_timerFunc env g answers)
      (started_timerFunc env' g' answers')
  · show (g.afterMovement env answers).remote.processInfrared _ =
      (g'.afterMovement env' answers').remote.processInfrared _
    rw [hmovement.remote, hcode]

end

/-- **The stimulus part of the messages and the sound files do not reach the motor**: two
runs with the same keys, the same answers when a movement waits and messages with the same
movement parts command the motor alike and execute the same movements, whatever the messages
say about stimuli and whatever files there are. -/
theorem stimuli_never_move (env env' : Env) (acts acts' : List Act)
    (h : List.Forall₂ (MotorAlike env env') acts acts') :
    ((machine env).run acts).remote = ((machine env').run acts').remote ∧
      ((machine env).run acts).executed = ((machine env').run acts').executed := by
  have hview : MotorView env env' ((machine env).run acts) ((machine env').run acts') := by
    refine Machine.related_run (m := machine env) (n := machine env')
      (E := MotorAlike env env') ⟨⟨rfl, fun _ => rfl⟩, .nil, rfl, rfl, rfl, rfl, rfl, rfl⟩ ?_ h
    intro g g' a a' _ _ hg ha
    cases ha with
    | tcpPush hmsg =>
      exact ⟨hg.heap, List.rel_append hg.tcpQueue (.cons hmsg .nil), hg.irQueue, hg.movementQueue,
        hg.movementSkip, hg.bIsFirstCall, hg.remote, hg.executed⟩
    | irPush code =>
      exact ⟨hg.heap, hg.tcpQueue, congrArg (· ++ [code]) hg.irQueue, hg.movementQueue,
        hg.movementSkip, hg.bIsFirstCall, hg.remote, hg.executed⟩
    | tick ha => exact hg.timerFunc ha
  exact ⟨hview.remote, hview.executed⟩

/-- Another stimulus, instant instead of queued, in a world without sound files. -/
theorem stimuli_never_move_instant :
    let env : Env := ⟨⟨fun _ => 0, fun _ => 0, .double⟩, oneSecond.pow⟩
    ((machine oneSecond).run [.tcpPush "001010.00090.000010025009011".toList, .tick busy]).remote =
        ((machine env).run [.tcpPush "001010.00090.000039911119010".toList, .tick busy]).remote ∧
      ((machine oneSecond).run
          [.tcpPush "001010.00090.000010025009011".toList, .tick busy]).executed =
        ((machine env).run [.tcpPush "001010.00090.000039911119010".toList, .tick busy]).executed :=
  stimuli_never_move oneSecond _ _ _
    (.cons (.tcpPush ⟨by decide, by decide +kernel⟩) (.cons (.tick rfl) .nil))

end Orbiter.Main
