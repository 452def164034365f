import Orbiter.Machine.Ranking
import Orbiter.Main.Commands
import Orbiter.Motor.Orders

/-!
# The loop and its motor

`main` with the motor in it: a pass is a `TimerFunc`, a `DisplayFunc` and an `IdleFunc`,
and behind the pass in which SIGTERM arrives the device is closed.  What a tick is answered
are the replies of the drive, and what it commands are calls of the EPOS library.

Only the head of the loop reads `exit_app`: a pass under way goes on when SIGTERM arrives, and
in a function it makes no difference where.

* `simulation`: the globals are those of `Orbiter.Main.machine`.
* `told_of_commanded`: **the drive is told what the loop commands.**
* `told_of_messages`: **and without key presses what the executed messages ask for.**
* `closing`: the steps left behind SIGTERM, as a `Machine.Ranking`.
* `closed_behind_sigterm`: **behind SIGTERM the pass under way is the last one.**
-/

namespace Orbiter.Main

open Cxx Toolbox Stimuli
open Motor (CMaxonMotor Epos Op KeyHandle construct obliging)

def MotorCall.op : MotorCall → Option Op
  | .setSpeed speed => some (.setSpeed speed)
  | .move targetPosition => some (.move targetPosition)
  | .halt => some .halt
  | .cNumb _ => none

def orders (calls : List MotorCall) : List Op := (calls.filterMap MotorCall.op).filter Op.isOrder

/-- Where `main` is: at the head of its loop, in front of a function of the pass, or over. -/
inductive Place
  | loop
  | timerFunc
  | displayFunc
  | idleFunc
  | returned
  deriving DecidableEq

/-- The steps of `main` up to its end, with SIGTERM received. -/
def Place.left : Place → Nat
  | .timerFunc => 4
  | .displayFunc => 3
  | .idleFunc => 2
  | .loop => 1
  | .returned => 0

/-- The globals, the motor, the flag of the signal handler, and where `main` is. -/
structure Loop where
  globals : Globals
  motor : CMaxonMotor
  exitApp : Bool
  place : Place

namespace Loop

variable (env : Env) (epos : Epos)

/-- A place that asks the motor, if the program gets there. -/
def ask (asks : Bool) (m : CMaxonMotor) : Bool × CMaxonMotor :=
  if asks then m.reachedTarget epos else (false, m)

/-- The commands given between two states of the globals. -/
def obey (m : CMaxonMotor) (g g' : Globals) : CMaxonMotor :=
  ((g'.remote.calls.drop g.remote.calls.length).filterMap MotorCall.op).foldl (Motor.step epos) m

/-- The movement processing asks whenever a movement waits, also if it need not. -/
def askMovement (g : Globals) (m : CMaxonMotor) : Bool × CMaxonMotor :=
  let (reached, m) := ask epos (!g.movementQueue.isEmpty) m
  (reached, obey epos m g (g.processMovement reached))

/-- The stimuli processing asks when a movement-bound stimulus is up and no movement
waits, and once more when the first answer is yes. -/
def askStimuli (g : Globals) (m : CMaxonMotor) : (Bool × Bool) × CMaxonMotor :=
  let pending := (g.stimuliLib.updateFSystem.bIsStimulusToPlayAsLongAsMovementsPending
    env.toFiles g.heap).1
  let asks := pending && g.movementQueue.isEmpty
  let (pendingReached, m) := ask epos asks m
  let (finishedReached, m) := ask epos (asks && pendingReached) m
  ((pendingReached, finishedReached), m)

variable (l : Loop)

/-- The answers of a tick, and the motor up to its infrared processing. -/
def asked (clockDSP : Nat) : Answers × CMaxonMotor :=
  let g := l.globals.afterMessage env
  let (movementReached, m) := askMovement epos g l.motor
  let ((pendingReached, finishedReached), m) :=
    askStimuli env epos (g.processMovement movementReached) m
  (⟨movementReached, pendingReached, finishedReached, clockDSP⟩, m)

def timerFunc (clockDSP : Nat) : Loop :=
  let (answers, m) := l.asked env epos clockDSP
  let g := l.globals.timerFunc env answers
  { l with globals := g, motor := obey epos m (l.globals.afterMovement env answers) g }

/-- `DisplayFunc`, which displays nothing any more. -/
def displayFunc : Loop := { l with motor := (l.motor.getSupply epos).2 }

def idleFunc : Loop := { l with motor := l.motor.idleFunc epos }

/-- What the receivers and the signal handler do, and a step of `main`. -/
inductive Act
  | tcpPush (msg : Str)
  | irPush (code : Str)
  | sigterm
  | main (clockDSP : Nat)
  deriving DecidableEq

def stepMain (clockDSP : Nat) : Loop :=
  match l.place with
  | .loop =>
    if l.exitApp then { l with motor := l.motor.closeDevice epos, place := .returned }
    else { l with place := .timerFunc }
  | .timerFunc => { l.timerFunc env epos clockDSP with place := .displayFunc }
  | .displayFunc => { l.displayFunc epos with place := .idleFunc }
  | .idleFunc => { l.idleFunc epos with place := .loop }
  | .returned => l

def step : Act → Loop
  | .tcpPush msg => { l with globals := Main.step env l.globals (.tcpPush msg) }
  | .irPush code => { l with globals := Main.step env l.globals (.irPush code) }
  | .sigterm => { l with exitApp := true }
  | .main clockDSP => l.stepMain env epos clockDSP

/-- `main` from its loop on; the constructor leaves `keyHandle` as it is. -/
def machine (keyHandle : KeyHandle) : Machine Loop Act where
  init := ⟨Globals.init, (construct keyHandle "USB0" 1).initializeDevice epos, false, .loop⟩
  step := step env epos

variable {env epos l}

/-! ### The globals -/

/-- **The ways a step of `main` can go.** -/
inductive Goes (env : Env) (epos : Epos) (l : Loop) (clockDSP : Nat) : Loop → Prop
  | leaves (hplace : l.place = .loop) (hexit : l.exitApp = true) :
      Goes env epos l clockDSP { l with motor := l.motor.closeDevice epos, place := .returned }
  | begins (hplace : l.place = .loop) (hexit : l.exitApp = false) :
      Goes env epos l clockDSP { l with place := .timerFunc }
  | timerFunc (hplace : l.place = .timerFunc) :
      Goes env epos l clockDSP { l.timerFunc env epos clockDSP with place := .displayFunc }
  | displayFunc (hplace : l.place = .displayFunc) :
      Goes env epos l clockDSP { l.displayFunc epos with place := .idleFunc }
  | idleFunc (hplace : l.place = .idleFunc) :
      Goes env epos l clockDSP { l.idleFunc epos with place := .loop }
  | returned (hplace : l.place = .returned) : Goes env epos l clockDSP l

theorem goes (env : Env) (epos : Epos) (l : Loop) (clockDSP : Nat) :
    Goes env epos l clockDSP (l.stepMain env epos clockDSP) := by
  rw [stepMain]
  cases hplace : l.place with
  | loop =>
    cases hexit : l.exitApp with
    | true =>
      dsimp only
      rw [if_pos rfl, ← hexit]
      exact .leaves hplace hexit
    | false =>
      dsimp only
      rw [if_neg Bool.false_ne_true, ← hexit]
      exact .begins hplace hexit
  | timerFunc => exact .timerFunc hplace
  | displayFunc => exact .displayFunc hplace
  | idleFunc => exact .idleFunc hplace
  | returned => exact .returned hplace

def word (env : Env) (epos : Epos) (l : Loop) : Act → List Main.Act
  | .tcpPush msg => [.tcpPush msg]
  | .irPush code => [.irPush code]
  | .sigterm => []
  | .main clockDSP =>
    if l.place = .timerFunc then [.tick (l.asked env epos clockDSP).1] else []

/-- The loop as the program of `Orbiter.Main.machine`, answered by the drive. -/
def simulation (env : Env) (epos : Epos) (keyHandle : KeyHandle) :
    (machine env epos keyHandle).Simulation (Main.machine env) where
  rel l g := l.globals = g
  word := word env epos
  init := rfl
  step := by
    rintro l _ a - rfl
    cases a with
    | tcpPush msg => rfl
    | irPush code => rfl
    | sigterm => rfl
    | main clockDSP =>
      show (l.stepMain env epos clockDSP).globals = _
      rw [word]
      have hgoes := goes env epos l clockDSP
      generalize l.stepMain env epos clockDSP = l' at hgoes
      cases hgoes with
      | timerFunc hplace =>
        rw [if_pos hplace]
        rfl
      | leaves hplace | begins hplace | displayFunc hplace | idleFunc hplace | returned hplace =>
        rw [if_neg (by simp [hplace])]
        rfl

/-! ### The motor -/

variable {m : CMaxonMotor}

theorem heard_ask {ops : List Op} (h : m.Heard ops) (asks : Bool) :
    (ask epos asks m).2.Heard ops := by
  rw [ask]
  split_ifs
  · exact h.quiet epos .reachedTarget rfl
  · exact h

/-- The motor hears the commands given between two states of the globals. -/
theorem heard_obey {g g' : Globals} (h : m.Heard (orders g.remote.calls))
    (hp : g.remote.calls <+: g'.remote.calls) :
    (obey epos m g g').Heard (orders g'.remote.calls) := by
  obtain ⟨cs, hcs⟩ := hp
  have hobey := h.runFrom epos (cs.filterMap MotorCall.op)
  rw [obey, ← hcs, List.drop_left, orders, List.filterMap_append, List.filter_append]
  exact hobey

theorem calls_processMovement (g : Globals) (reached : Bool) :
    g.remote.calls <+: (g.processMovement reached).remote.calls := by
  have hstart : ∀ d, g.remote.calls <+: (g.remote.startMovement d).calls := by
    intro d
    obtain ⟨cs, hcs, -⟩ := g.remote.startMovement_calls d
    exact ⟨cs, hcs.symm⟩
  rcases Globals.processMovement_cases (g := g) reached with
    ⟨-, h⟩ | ⟨front, rest, -, -, h⟩ | ⟨front, rest, -, -, -, -, h⟩ | ⟨-, -, -, -, h⟩ <;> rw [h]
  · exact hstart _
  · exact hstart _

theorem calls_timerFunc (g : Globals) (answers : Answers) :
    (g.afterMovement env answers).remote.calls <+: (g.timerFunc env answers).remote.calls := by
  rw [remote_timerFunc]
  cases g.pressed with
  | none => exact List.prefix_rfl
  | some key => exact ⟨_, (Remote.act_calls _ key).symm⟩

def Heard (l : Loop) : Prop := l.motor.Heard (orders l.globals.remote.calls)

theorem Heard.timerFunc (h : l.Heard) (env : Env) (epos : Epos) (clockDSP : Nat) :
    (l.timerFunc env epos clockDSP).Heard := by
  have hmessage : l.motor.Heard (orders (l.globals.afterMessage env).remote.calls) := by
    rw [(Globals.afterMessage_frame env l.globals).remote]
    exact h
  refine heard_obey ?_ (calls_timerFunc _ _)
  refine heard_ask (heard_ask ?_ _) _
  exact heard_obey (heard_ask hmessage _) (calls_processMovement _ _)

theorem heard_step (h : l.Heard) (a : Act) : (l.step env epos a).Heard := by
  cases a with
  | tcpPush msg => exact h
  | irPush code => exact h
  | sigterm => exact h
  | main clockDSP =>
    have hgoes := goes env epos l clockDSP
    rw [step]
    generalize l.stepMain env epos clockDSP = l' at hgoes
    cases hgoes with
    | leaves => exact CMaxonMotor.Heard.quiet h epos .closeDevice rfl
    | begins => exact h
    | timerFunc => exact h.timerFunc env epos clockDSP
    | displayFunc => exact CMaxonMotor.Heard.quiet h epos .getSupply rfl
    | idleFunc => exact CMaxonMotor.Heard.idleFunc h epos
    | returned => exact h

theorem heard_run (env : Env) (epos : Epos) (keyHandle : KeyHandle) (acts : List Act) :
    ((machine env epos keyHandle).run acts).Heard := by
  induction acts using List.reverseRecOn with
  | nil =>
    have hnew : (construct keyHandle "USB0" 1).Heard [] := ⟨List.Sublist.refl _, fun _ => rfl⟩
    exact hnew.quiet epos .initializeDevice rfl
  | append_singleton acts a ih =>
    rw [Machine.run_concat]
    exact heard_step ih a

/-- **The drive is told what the loop commands**: over every run and whatever it replies, the
moves and halts it is given are commanded ones in their order, and all of them unless a
switch to its position mode failed. -/
theorem told_of_commanded (env : Env) (epos : Epos) (keyHandle : KeyHandle) (acts : List Act) :
    let l := (machine env epos keyHandle).run acts
    l.motor.told.Sublist (orders l.globals.remote.calls) ∧
      (l.motor.modesOn = true → l.motor.told = orders l.globals.remote.calls) := by
  have hrun := heard_run env epos keyHandle acts
  exact ⟨hrun.sublist, hrun.eq⟩

/-! ### From the host to the drive -/

def Act.isIrPush : Act → Bool
  | .irPush _ => true
  | _ => false

theorem words_isIrPush {keyHandle : KeyHandle} {acts : List Act}
    (hkeys : ∀ a ∈ acts, a.isIrPush = false) :
    ∀ a ∈ (simulation env epos keyHandle).words acts, a.isIrPush = false := by
  intro a ha
  obtain ⟨⟨l, b⟩, hb, ha⟩ := List.mem_flatMap.mp ha
  obtain ⟨pre, post, hacts, -⟩ := (machine env epos keyHandle).mem_steps_iff.mp hb
  have hbkeys := hkeys b (by rw [hacts]; simp)
  change a ∈ word env epos l b at ha
  cases b with
  | tcpPush msg =>
    rw [List.mem_singleton.mp ha]
    rfl
  | irPush code => exact absurd hbkeys (by simp [Act.isIrPush])
  | sigterm => exact absurd ha (by simp [word])
  | main clockDSP =>
    rw [word] at ha
    split_ifs at ha
    · rw [List.mem_singleton.mp ha]
      rfl
    · exact absurd ha (by simp)

/-- **From the host to the drive**: without key presses the drive is told the moves of the
executed messages, each message at most once and in the order of arrival. -/
theorem told_of_messages (env : Env) (epos : Epos) (keyHandle : KeyHandle) (acts : List Act)
    (hkeys : ∀ a ∈ acts, a.isIrPush = false) :
    let l := (machine env epos keyHandle).run acts
    let commanded :=
      (Remote.started (l.globals.executed.map (l.globals.hostData env).deref)).calls
    l.globals.executed.Pairwise (· < ·) ∧ l.motor.told.Sublist (orders commanded) ∧
      (l.motor.modesOn = true → l.motor.told = orders commanded) := by
  intro l commanded
  have hl : l.globals = (Main.machine env).run ((simulation env epos keyHandle).words acts) :=
    (simulation env epos keyHandle).run acts
  have hheard : l.Heard := heard_run env epos keyHandle acts
  have hcommanded : l.globals.remote.calls = commanded := by
    obtain ⟨s, hs⟩ := remote_of_executed env _ (words_isIrPush hkeys)
    rw [← hl] at hs
    rw [hs]
  have hincreasing := (executed_increasing env ((simulation env epos keyHandle).words acts)).1
  rw [← hl] at hincreasing
  rw [← hcommanded]
  exact ⟨(List.pairwise_append.mp hincreasing).1, hheard.sublist, hheard.eq⟩

/-- A message, and SIGTERM in the pass that takes it. -/
def oneMessage : List Act :=
  [.tcpPush "001010.00090.000010025009011".toList, .main 0, .sigterm, .main 0]

theorem told_of_messages_oneMessage :
    let l := (machine oneSecond obliging 0).run oneMessage
    let commanded :=
      (Remote.started (l.globals.executed.map (l.globals.hostData oneSecond).deref)).calls
    l.globals.executed.Pairwise (· < ·) ∧ l.motor.told.Sublist (orders commanded) ∧
      (l.motor.modesOn = true → l.motor.told = orders commanded) :=
  told_of_messages oneSecond obliging 0 oneMessage (by decide)

/-! ### The end -/

def lastCall (l : Loop) : Option Motor.Vcs := l.motor.calls.getLast?.map Prod.fst

/-- With SIGTERM received, `main` can only end with the closing. -/
structure Closing (l : Loop) : Prop where
  exitApp : l.exitApp = true
  lastCall : l.place = .returned → l.lastCall = some .closeAllDevices

theorem lastCall_closeDevice (l : Loop) :
    { l with motor := l.motor.closeDevice epos, place := .returned }.lastCall =
      some .closeAllDevices := by
  rw [lastCall, CMaxonMotor.closeDevice, CMaxonMotor.calls_call, List.getLast?_concat]
  rfl

theorem Closing.step (h : l.Closing) (a : Act) : (l.step env epos a).Closing := by
  cases a with
  | tcpPush msg => exact ⟨h.exitApp, h.lastCall⟩
  | irPush code => exact ⟨h.exitApp, h.lastCall⟩
  | sigterm => exact ⟨rfl, h.lastCall⟩
  | main clockDSP =>
    have hgoes := goes env epos l clockDSP
    rw [Loop.step]
    generalize l.stepMain env epos clockDSP = l' at hgoes
    cases hgoes with
    | leaves => exact ⟨h.exitApp, fun _ => lastCall_closeDevice l⟩
    | begins | timerFunc | displayFunc | idleFunc => exact ⟨h.exitApp, by simp⟩
    | returned => exact h

/-- `main` only ends behind SIGTERM. -/
theorem closing_of_returned (env : Env) (epos : Epos) (keyHandle : KeyHandle) (acts : List Act) :
    ((machine env epos keyHandle).run acts).place = .returned →
      ((machine env epos keyHandle).run acts).Closing := by
  induction acts using List.reverseRecOn with
  | nil => exact fun h => absurd h (by simp [machine])
  | append_singleton acts a ih =>
    rw [Machine.run_concat]
    generalize (machine env epos keyHandle).run acts = l at ih ⊢
    intro hplace
    change (l.step env epos a).place = .returned at hplace
    show (l.step env epos a).Closing
    cases a with
    | tcpPush msg => exact (ih hplace).step (.tcpPush msg)
    | irPush code => exact (ih hplace).step (.irPush code)
    | sigterm => exact (ih hplace).step .sigterm
    | main clockDSP =>
      have hgoes := goes env epos l clockDSP
      rw [step] at hplace ⊢
      generalize l.stepMain env epos clockDSP = l' at hgoes hplace ⊢
      cases hgoes with
      | leaves _ hexit => exact ⟨hexit, fun _ => lastCall_closeDevice l⟩
      | begins | timerFunc | displayFunc | idleFunc => exact absurd hplace (by simp)
      | returned hplace => exact ih hplace

theorem closing_of_exitApp (keyHandle : KeyHandle) {acts : List Act}
    (hexit : ((machine env epos keyHandle).run acts).exitApp = true) :
    ((machine env epos keyHandle).run acts).Closing :=
  ⟨hexit, fun hplace => (closing_of_returned env epos keyHandle acts hplace).lastCall hplace⟩

/-! ### The steps left -/

def Act.isMain : Act → Bool
  | .main _ => true
  | _ => false

theorem Closing.left_step (h : l.Closing) (env : Env) (epos : Epos) (a : Act) :
    (l.step env epos a).place.left = l.place.left - if a.isMain then 1 else 0 := by
  cases a with
  | tcpPush msg => rfl
  | irPush code => rfl
  | sigterm => rfl
  | main clockDSP =>
    have hgoes := goes env epos l clockDSP
    rw [Loop.step]
    generalize l.stepMain env epos clockDSP = l' at hgoes
    cases hgoes with
    | begins _ hexit => exact absurd (h.exitApp.symm.trans hexit) (by simp)
    | leaves hplace | timerFunc hplace | displayFunc hplace | idleFunc hplace | returned hplace =>
      rw [hplace]
      rfl

def closing (env : Env) (epos : Epos) (keyHandle : KeyHandle) :
    (machine env epos keyHandle).Ranking Closing (fun _ _ => True) (fun _ a => a.isMain) where
  rank l := l.place.left
  keep _ a h _ := h.step a
  le _ a h _ := (h.left_step env epos a).le.trans (Nat.sub_le _ _)
  lt := by
    intro l a h _ ha
    have hleft := h.left_step env epos a
    rw [ha] at hleft
    exact hleft.le

/-- Behind its `TimerFunc` the last pass tells the drive nothing. -/
theorem Closing.told_step (h : l.Closing) (hplace : l.place ≠ .timerFunc) (env : Env)
    (epos : Epos) (a : Act) :
    (l.step env epos a).motor.told = l.motor.told ∧ (l.step env epos a).place ≠ .timerFunc := by
  cases a with
  | tcpPush msg => exact ⟨rfl, hplace⟩
  | irPush code => exact ⟨rfl, hplace⟩
  | sigterm => exact ⟨rfl, hplace⟩
  | main clockDSP =>
    have hgoes := goes env epos l clockDSP
    rw [Loop.step]
    generalize l.stepMain env epos clockDSP = l' at hgoes
    cases hgoes with
    | leaves => exact ⟨CMaxonMotor.told_closeDevice epos l.motor, by simp⟩
    | begins _ hexit => exact absurd (h.exitApp.symm.trans hexit) (by simp)
    | timerFunc htimer => exact absurd htimer hplace
    | displayFunc => exact ⟨CMaxonMotor.told_getSupply epos l.motor, by simp⟩
    | idleFunc => exact ⟨CMaxonMotor.told_idleFunc epos l.motor, by simp⟩
    | returned => exact ⟨rfl, hplace⟩

theorem Closing.told_runFrom (keyHandle : KeyHandle) (h : l.Closing)
    (hplace : l.place ≠ .timerFunc) (acts : List Act) :
    ((machine env epos keyHandle).runFrom l acts).motor.told = l.motor.told := by
  induction acts generalizing l with
  | nil => rfl
  | cons a acts ih =>
    obtain ⟨htold, hnext⟩ := h.told_step hplace env epos a
    exact (ih (h.step a) hnext).trans htold

/-- The first step of `main` behind SIGTERM is the last one that can be a `TimerFunc`. -/
theorem Closing.place_main (h : l.Closing) (clockDSP : Nat) :
    (l.step env epos (.main clockDSP)).place ≠ .timerFunc := by
  have hleft := h.left_step env epos (.main clockDSP)
  intro hplace
  rw [hplace] at hleft
  have hle : l.place.left ≤ 4 := by cases l.place <;> decide
  change 4 = l.place.left - 1 at hleft
  omega

/-- **Behind SIGTERM** the pass under way is the last one, whatever the receivers still push:
when its `TimerFunc` is over the drive gets no order any more, and none at all when no
`TimerFunc` was to come; `main` closes the device behind the pass, and ends. -/
theorem closed_behind_sigterm (env : Env) (epos : Epos) (keyHandle : KeyHandle)
    (acts acts' : List Act) (hexit : ((machine env epos keyHandle).run acts).exitApp = true) :
    let l := (machine env epos keyHandle).run acts
    let l' := (machine env epos keyHandle).run (acts ++ acts')
    (l.place ≠ .timerFunc → l'.motor.told = l.motor.told) ∧
      (∀ before clockDSP behind, acts' = before ++ .main clockDSP :: behind →
        l'.motor.told =
          ((machine env epos keyHandle).run (acts ++ before ++ [.main clockDSP])).motor.told) ∧
      (l.place.left ≤ acts'.countP Act.isMain →
        l'.place = .returned ∧ l'.lastCall = some .closeAllDevices) := by
  intro l l'
  have hclosing : l.Closing := closing_of_exitApp keyHandle hexit
  have hrun : l' = (machine env epos keyHandle).runFrom l acts' := Machine.run_append _ _ _
  refine ⟨?_, ?_, ?_⟩
  · intro hplace
    rw [hrun]
    exact hclosing.told_runFrom keyHandle hplace acts'
  · rintro before clockDSP behind rfl
    have hbefore : ((machine env epos keyHandle).run (acts ++ before)).Closing := by
      rw [Machine.run_append]
      exact (closing env epos keyHandle).keep_runFrom hclosing fun _ _ => trivial
    have hmain : ((machine env epos keyHandle).run (acts ++ before ++ [.main clockDSP])).Closing ∧
        ((machine env epos keyHandle).run (acts ++ before ++ [.main clockDSP])).place ≠
          .timerFunc := by
      rw [Machine.run_concat]
      exact ⟨hbefore.step (.main clockDSP), hbefore.place_main clockDSP⟩
    have hbehind : l' = (machine env epos keyHandle).runFrom
        ((machine env epos keyHandle).run (acts ++ before ++ [.main clockDSP])) behind := by
      rw [← Machine.run_append]
      exact congrArg (machine env epos keyHandle).run (by simp)
    rw [hbehind]
    exact hmain.1.told_runFrom keyHandle hmain.2 behind
  · intro hcount
    have hleft : l'.place.left = 0 := by
      rw [hrun]
      refine (closing env epos keyHandle).rank_eq_zero hclosing (fun _ _ => trivial) ?_
      rw [Machine.countFrom_countP]
      exact hcount
    have hplace : l'.place = .returned := by
      cases h : l'.place with
      | returned => rfl
      | loop | timerFunc | displayFunc | idleFunc =>
        rw [h] at hleft
        exact absurd hleft (by decide)
    have hclosed : l'.Closing := closing_of_returned env epos keyHandle _ hplace
    exact ⟨hplace, hclosed.lastCall hplace⟩

theorem closed_behind_sigterm_oneMessage :
    let l := (machine oneSecond obliging 0).run (oneMessage.take 3)
    let acts' : List Act := [.irPush "KEY_PLAY".toList, .main 0, .main 0, .main 0, .main 0]
    let l' := (machine oneSecond obliging 0).run (oneMessage.take 3 ++ acts')
    (l.place ≠ .timerFunc → l'.motor.told = l.motor.told) ∧
      (∀ before clockDSP behind, acts' = before ++ .main clockDSP :: behind →
        l'.motor.told =
          ((machine oneSecond obliging 0).run
            (oneMessage.take 3 ++ before ++ [.main clockDSP])).motor.told) ∧
      (l.place.left ≤ acts'.countP Act.isMain →
        l'.place = .returned ∧ l'.lastCall = some .closeAllDevices) :=
  closed_behind_sigterm oneSecond obliging 0 (oneMessage.take 3) _ rfl

end Loop

end Orbiter.Main
