import Orbiter.Stimuli.Playback
import Orbiter.Main.Remote
import Orbiter.Machine.Run

/-!
# `TimerFunc`

One tick of the control loop of `main.cpp`: drain the infrared and the network
queue, interpret the last message, start a movement, drive the stimuli, and look at
the keys.  The receiver threads push whole strings between the ticks; `machine` is
the loop under all their interleavings, and `Orbiter.Main.Threads` lets them push in
the middle of a tick too.

* `interpretProtocol_of_ne_nil`: what a message does to the two queues.
* `processMovement_cases`: the four ways the movement step can go.
* `started_timerFunc`: a `HostData` changes only by being started.
-/

namespace Orbiter.Main

open Cxx Toolbox Stimuli

/-- The outside of the program: `std::pow`, the sound files and the arithmetic. -/
structure Env extends Files where
  pow : ℚ → ℚ → ℚ

/-- The globals of `main.cpp`, `main`'s `bIsFirstCall`, and a history of what was
decoded, pushed on the two queues and executed. -/
structure Globals where
  heap : Store HostData
  tcpQueue : List Str
  irQueue : List Str
  movementQueue : List Ref
  movementSkip : Bool
  stimuliSkip : Bool
  bIsFirstCall : Bool
  remote : Remote
  stimuliLib : StimuliLibrary
  decoded : List Str
  movementPushed : List HostData
  stimuliPushed : List HostData
  executed : List Ref

/-- `while (!queue.empty()) { s = queue.front(); queue.pop(); }` -/
def drain : List Str → Str → Str
  | [], s => s
  | front :: queue, _ => drain queue front

namespace Remote

variable (r : Remote)

/-- The motor commands of `vProcessMovement`. -/
def startMovement (hostData : HostData) : Remote :=
  let r := if hostData.direction = 1 then { r with iAngle := truncate hostData.angularDistance }
    else r
  let r := if hostData.direction = 2 then
      { r with iAngle := truncate (hostData.angularDistance * -1) }
    else r
  if hostData.direction ≠ 0 then
    let r := r.calcTargetPosition
    r.log [.setSpeed hostData.speed, .move r.iTargetPosition]
  else r

end Remote

namespace Globals

variable (env : Env) (g : Globals)

def init : Globals where
  heap := []
  tcpQueue := []
  irQueue := []
  movementQueue := []
  movementSkip := false
  stimuliSkip := false
  bIsFirstCall := true
  remote := Remote.init
  stimuliLib := StimuliLibrary.init
  decoded := []
  movementPushed := []
  stimuliPushed := []
  executed := []

/-- The movement part of a message, whose `HostData` is at `r`. -/
def queueMovement (hostData : HostData) (r : Ref) : Globals :=
  let g := { g with movementPushed := g.movementPushed ++ [hostData] }
  if hostData.movQueued then
    { g with movementQueue := g.movementQueue ++ [r], movementSkip := false }
  else { g with movementSkip := true, movementQueue := [r] }

def queueStimulus (hostData : HostData) (r : Ref) : Globals :=
  let g := { g with stimuliPushed := g.stimuliPushed ++ [hostData] }
  if hostData.stimQueued then
    { g with
      stimuliLib := { g.stimuliLib with stimuliQueue := g.stimuliLib.stimuliQueue ++ [r] }
      stimuliSkip := false }
  else
    { g with stimuliSkip := true, stimuliLib := { g.stimuliLib with stimuliQueue := [r] } }

/-- The protocol interpretation: an empty string is no message. -/
def interpretProtocol (hostDataRaw : Str) : Globals :=
  if hostDataRaw = [] then g
  else
    let hostData := decodeHostData env.pow hostDataRaw 0
    let r := g.heap.next
    let g := { g with heap := g.heap.alloc hostData, decoded := g.decoded ++ [hostDataRaw] }
    (g.queueMovement hostData r).queueStimulus hostData r

def execute (front : Ref) (rest : List Ref) : Globals :=
  { g with
    movementQueue := rest
    remote := g.remote.startMovement (g.heap.deref front)
    executed := g.executed ++ [front] }

def vProcessMovement : Globals :=
  match g.movementQueue with
  | [] => g
  | front :: rest => g.execute front rest

def processMovement (reachedTarget : Bool) : Globals :=
  if g.movementQueue = [] then g
  else if reachedTarget ∨ g.movementSkip then g.vProcessMovement
  else if g.bIsFirstCall then { g with bIsFirstCall := false }.vProcessMovement
  else g

def processStimuli (answers : Answers) : Globals :=
  let (heap, stimuliLib) :=
    g.stimuliLib.processStimuli env.toFiles g.heap g.movementQueue answers
  { g with heap := heap, stimuliLib := stimuliLib }

/-- A tick behind its two drains. -/
def handle (answers : Answers) (code hostDataRaw : Str) : Globals :=
  let g := (g.interpretProtocol env hostDataRaw).processMovement answers.movementReached
  let g := g.processStimuli env answers
  { g with remote := g.remote.processInfrared code }

/-- The tick: both drains, then the rest. -/
def timerFunc (answers : Answers) : Globals :=
  { g with irQueue := [], tcpQueue := [] }.handle env answers (drain g.irQueue "xx".toList)
    (drain g.tcpQueue [])

end Globals

/-- The steps of the loop: a push by one of the receiver threads, or a tick. -/
inductive Act
  | tcpPush (msg : Str)
  | irPush (code : Str)
  | tick (answers : Answers)
  deriving DecidableEq

def step (env : Env) (g : Globals) : Act → Globals
  | .tcpPush msg => { g with tcpQueue := g.tcpQueue ++ [msg] }
  | .irPush code => { g with irQueue := g.irQueue ++ [code] }
  | .tick answers => g.timerFunc env answers

def machine (env : Env) : Machine Globals Act where
  init := Globals.init
  step := step env

/-! ### The drain -/

theorem drain_concat (queue : List Str) (msg s : Str) : drain (queue ++ [msg]) s = msg := by
  induction queue generalizing s with
  | nil => rfl
  | cons front queue ih => exact ih front

namespace Globals

variable {env : Env} {g : Globals}

/-! ### The message -/

theorem interpretProtocol_nil : g.interpretProtocol env [] = g := rfl

/-- What a message does to the queues; `r` is its `HostData`. -/
structure Interpreted (env : Env) (g : Globals) (raw : Str) (g' : Globals) : Prop where
  heap : g'.heap = g.heap.alloc (decodeHostData env.pow raw 0)
  movementQueue : g'.movementQueue =
    if (decodeHostData env.pow raw 0).movQueued then g.movementQueue ++ [g.heap.next]
    else [g.heap.next]
  movementSkip : g'.movementSkip = !(decodeHostData env.pow raw 0).movQueued
  stimuliLib : g'.stimuliLib = { g.stimuliLib with
    stimuliQueue := if (decodeHostData env.pow raw 0).stimQueued then
      g.stimuliLib.stimuliQueue ++ [g.heap.next] else [g.heap.next] }
  decoded : g'.decoded = g.decoded ++ [raw]
  movementPushed : g'.movementPushed = g.movementPushed ++ [decodeHostData env.pow raw 0]
  stimuliPushed : g'.stimuliPushed = g.stimuliPushed ++ [decodeHostData env.pow raw 0]
  tcpQueue : g'.tcpQueue = g.tcpQueue
  irQueue : g'.irQueue = g.irQueue
  bIsFirstCall : g'.bIsFirstCall = g.bIsFirstCall
  remote : g'.remote = g.remote
  executed : g'.executed = g.executed

/-- **What a message does.** -/
theorem interpretProtocol_of_ne_nil (env : Env) {raw : Str} (h : raw ≠ []) :
    Interpreted env g raw (g.interpretProtocol env raw) := by
  rw [interpretProtocol, if_neg h]
  generalize hd : decodeHostData env.pow raw 0 = d
  cases hm : d.movQueued <;> cases hs : d.stimQueued <;>
    constructor <;> simp [queueMovement, queueStimulus, hd, hm, hs]

/-! ### The movement step -/

theorem vProcessMovement_of_eq {front : Ref} {rest : List Ref}
    (h : g.movementQueue = front :: rest) : g.vProcessMovement = g.execute front rest := by
  rw [vProcessMovement, h]

/-- **The four ways the movement step can go**: nothing waits; the motor is free or
need not be waited for; the motor is busy and this is the first call; or the queue
waits. -/
theorem processMovement_cases (reached : Bool) :
    (g.movementQueue = [] ∧ g.processMovement reached = g) ∨
    (∃ front rest, g.movementQueue = front :: rest ∧ (reached = true ∨ g.movementSkip = true) ∧
      g.processMovement reached = g.execute front rest) ∨
    (∃ front rest, g.movementQueue = front :: rest ∧ reached = false ∧ g.movementSkip = false ∧
      g.bIsFirstCall = true ∧
      g.processMovement reached = { g with bIsFirstCall := false }.execute front rest) ∨
    (g.movementQueue ≠ [] ∧ reached = false ∧ g.movementSkip = false ∧ g.bIsFirstCall = false ∧
      g.processMovement reached = g) := by
  cases hq : g.movementQueue with
  | nil => exact Or.inl ⟨rfl, by rw [processMovement, if_pos hq]⟩
  | cons front rest =>
    have hne : ¬ g.movementQueue = [] := by rw [hq]; simp
    right
    by_cases hfree : reached = true ∨ g.movementSkip = true
    · left
      refine ⟨front, rest, rfl, hfree, ?_⟩
      rw [processMovement, if_neg hne, if_pos hfree, vProcessMovement_of_eq hq]
    · right
      have hbusy := hfree
      rw [not_or, Bool.not_eq_true, Bool.not_eq_true] at hbusy
      cases hf : g.bIsFirstCall with
      | true =>
        left
        refine ⟨front, rest, rfl, hbusy.1, hbusy.2, rfl, ?_⟩
        rw [processMovement, if_neg hne, if_neg hfree, if_pos hf]
        exact vProcessMovement_of_eq hq
      | false =>
        right
        refine ⟨by simp, hbusy.1, hbusy.2, rfl, ?_⟩
        rw [processMovement, if_neg hne, if_neg hfree, if_neg (by simp [hf])]

structure MovementFrame (g g' : Globals) : Prop where
  heap : g'.heap = g.heap
  tcpQueue : g'.tcpQueue = g.tcpQueue
  irQueue : g'.irQueue = g.irQueue
  movementSkip : g'.movementSkip = g.movementSkip
  stimuliLib : g'.stimuliLib = g.stimuliLib
  decoded : g'.decoded = g.decoded
  movementPushed : g'.movementPushed = g.movementPushed
  stimuliPushed : g'.stimuliPushed = g.stimuliPushed

theorem processMovement_frame (reached : Bool) : MovementFrame g (g.processMovement reached) := by
  rcases processMovement_cases (g := g) reached with
    ⟨-, h⟩ | ⟨front, rest, -, -, h⟩ | ⟨front, rest, -, -, -, -, h⟩ | ⟨-, -, -, -, h⟩ <;>
  · rw [h]
    constructor <;> rfl

/-! ### The tick in its parts -/

def message (g : Globals) : Str := drain g.tcpQueue []

/-- The tick up to its protocol interpretation. -/
def afterMessage (env : Env) (g : Globals) : Globals :=
  { g with irQueue := [], tcpQueue := [] }.interpretProtocol env g.message

/-- The tick up to its movement processing. -/
def afterMovement (env : Env) (answers : Answers) (g : Globals) : Globals :=
  (g.afterMessage env).processMovement answers.movementReached

theorem afterMessage_of_nil (env : Env) (h : g.message = []) :
    g.afterMessage env = { g with irQueue := [], tcpQueue := [] } := by
  rw [afterMessage, h, interpretProtocol_nil]

theorem afterMessage_of_ne_nil (env : Env) (h : g.message ≠ []) :
    Interpreted env { g with irQueue := [], tcpQueue := [] } g.message (g.afterMessage env) :=
  interpretProtocol_of_ne_nil env h

structure MessageFrame (g g' : Globals) : Prop where
  bIsFirstCall : g'.bIsFirstCall = g.bIsFirstCall
  remote : g'.remote = g.remote
  executed : g'.executed = g.executed
  calls : g'.stimuliLib.calls = g.stimuliLib.calls
  hostDataOfHijackedProtocol : g'.stimuliLib.hostDataOfHijackedProtocol =
    g.stimuliLib.hostDataOfHijackedProtocol

theorem afterMessage_frame (env : Env) (g : Globals) : MessageFrame g (g.afterMessage env) := by
  by_cases hm : g.message = []
  · rw [afterMessage_of_nil env hm]
    constructor <;> rfl
  · have hi := afterMessage_of_ne_nil env hm
    exact ⟨hi.bIsFirstCall, hi.remote, hi.executed, by rw [hi.stimuliLib], by rw [hi.stimuliLib]⟩

/-- **A `HostData` changes only by being started.** -/
theorem started_timerFunc (env : Env) (g : Globals) (answers : Answers) :
    Started (g.afterMessage env).heap (g.timerFunc env answers).heap := by
  have hframe := (processMovement_frame (g := g.afterMessage env) answers.movementReached).heap
  have htick := congrArg Prod.fst
    ((g.afterMovement env answers).stimuliLib.processStimuli_playback env.toFiles
      (g.afterMovement env answers).heap (g.afterMovement env answers).movementQueue answers)
  have hheap : (g.timerFunc env answers).heap =
      ((g.afterMovement env answers).stimuliLib.playback.tick env.toFiles
        (g.afterMovement env answers).heap
        (StimuliLibrary.moving (g.afterMovement env answers).movementQueue answers)
        answers.finishedReached).1 := htick
  rw [hheap, ← hframe]
  exact Playback.started_tick _ _ _ _ _

theorem timerFunc_decoded (answers : Answers) :
    (g.timerFunc env answers).decoded = (g.afterMessage env).decoded :=
  (processMovement_frame (g := g.afterMessage env) answers.movementReached).decoded

/-- What the messages so far decode to, in their order. -/
def hostData (env : Env) (g : Globals) : Store HostData :=
  g.decoded.map fun raw => decodeHostData env.pow raw 0

end Globals

open Globals

variable {env : Env}

/-- The message adds its `HostData` to what was decoded and to the store. -/
theorem started_hostData_afterMessage {g : Globals} (h : Started (g.hostData env) g.heap) :
    Started ((g.afterMessage env).hostData env) (g.afterMessage env).heap := by
  by_cases hm : g.message = []
  · rw [afterMessage_of_nil env hm]
    exact h
  · have hi := afterMessage_of_ne_nil env hm
    rw [hostData, hi.decoded, hi.heap, List.map_append]
    exact h.alloc _

theorem hostData_timerFunc (env : Env) (g : Globals) (answers : Answers) :
    (g.timerFunc env answers).hostData env = (g.afterMessage env).hostData env := by
  rw [hostData, timerFunc_decoded]
  rfl

/-- **The store holds what was decoded**, one `HostData` for each message, up to the
flag that starting a stimulus clears. -/
theorem started_hostData : (machine env).Invariant fun g => Started (g.hostData env) g.heap where
  init := Started.refl []
  step := by
    intro g a _ h
    cases a with
    | tcpPush msg => exact h
    | irPush code => exact h
    | tick answers =>
      show Started ((g.timerFunc env answers).hostData env) (g.timerFunc env answers).heap
      rw [hostData_timerFunc]
      exact (started_hostData_afterMessage h).trans (started_timerFunc env g answers)

/-! ### A small world -/

def oneSecond : Env := ⟨⟨fun _ => 1000, fun _ => 48000, .double⟩, fun _ _ => 1⟩

def busy : Answers := ⟨false, false, false, 0⟩

def arrived : Answers := ⟨true, true, true, 0⟩

end Orbiter.Main
