import Orbiter.Main.Timer
import Orbiter.Machine.Handoff

/-!
# The receiver threads

`TimerFunc` takes a mutex for one `pop` at a time, so `tcp_func` and `ir_func` also
push while a tick is under way.  Here a tick is three kinds of step: it drains the
infrared queue, pops network strings one at a time, and does the rest once it has
found the network queue empty.

* `delivered_iff`: **no message is lost, repeated or reordered** in exactly the runs
  in which no tick pops another string behind a message.
* `threadsSimulation`: whatever the threads do, the ticks are those of `machine`.
-/

namespace Orbiter.Main

open Cxx Toolbox Stimuli Globals

/-- The globals, and the tick under way: its infrared code and the string popped
last. -/
structure Threads where
  globals : Globals
  tick : Option (Str × Str)
  pushed : List Str

namespace Threads

inductive Act
  | tcpPush (msg : Str)
  | irPush (code : Str)
  | beginTick
  | pop
  | finishTick (answers : Answers)
  deriving DecidableEq

def step (env : Env) (s : Threads) : Act → Threads
  | .tcpPush msg =>
    { s with
      globals := { s.globals with tcpQueue := s.globals.tcpQueue ++ [msg] }
      pushed := s.pushed ++ [msg] }
  | .irPush code =>
    { s with globals := { s.globals with irQueue := s.globals.irQueue ++ [code] } }
  | .beginTick =>
    match s.tick with
    | none =>
      { s with
        globals := { s.globals with irQueue := [] }
        tick := some (drain s.globals.irQueue "xx".toList, []) }
    | some _ => s
  | .pop =>
    match s.tick, s.globals.tcpQueue with
    | some (code, _), front :: queue =>
      { s with globals := { s.globals with tcpQueue := queue }, tick := some (code, front) }
    | _, _ => s
  | .finishTick answers =>
    match s.tick, s.globals.tcpQueue with
    | some (code, hostDataRaw), [] =>
      { s with globals := s.globals.handle env answers code hostDataRaw, tick := none }
    | _, _ => s

def machine (env : Env) : Machine Threads Act where
  init := ⟨Globals.init, none, []⟩
  step := step env

def register (s : Threads) : Str := s.tick.elim [] Prod.snd

abbrev messages : List Str → List Str := Handoff.messages []

/-- What every push asks for: the messages decoded so far, the one in hand and those
still in the queue are the messages pushed, in their order, and each one decoded was
pushed on both queues. -/
structure Delivered (env : Env) (s : Threads) : Prop where
  order : s.globals.decoded ++ messages [s.register] ++ messages s.globals.tcpQueue =
    messages s.pushed
  movement : s.globals.movementPushed = s.globals.hostData env
  stimuli : s.globals.stimuliPushed = s.globals.hostData env

/-- The tick under way holds a message and pops another string. -/
def Overwrites (s : Threads) : Act → Prop
  | .pop => s.register ≠ [] ∧ s.globals.tcpQueue ≠ []
  | _ => False

/-! ### The hand-over -/

variable {env : Env}

theorem handle_decoded (g : Globals) (answers : Answers) (code raw : Str) :
    (g.handle env answers code raw).decoded = g.decoded ++ messages [raw] := by
  refine (processMovement_frame (g := g.interpretProtocol env raw) _).decoded.trans ?_
  by_cases h : raw = []
  · rw [h, interpretProtocol_nil, messages, Handoff.messages_blank, List.append_nil]
  · rw [(interpretProtocol_of_ne_nil env h).decoded, messages, Handoff.messages_of_ne _ h]

theorem handle_tcpQueue (g : Globals) (answers : Answers) (code raw : Str) :
    (g.handle env answers code raw).tcpQueue = g.tcpQueue := by
  refine (processMovement_frame (g := g.interpretProtocol env raw) _).tcpQueue.trans ?_
  by_cases h : raw = []
  · rw [h, interpretProtocol_nil]
  · rw [(interpretProtocol_of_ne_nil env h).tcpQueue]

/-- Each message decoded is pushed on both queues. -/
structure Pushed (env : Env) (g : Globals) : Prop where
  movement : g.movementPushed = g.hostData env
  stimuli : g.stimuliPushed = g.hostData env

theorem Pushed.handle {g : Globals} (h : Pushed env g) (answers : Answers) (code raw : Str) :
    Pushed env (g.handle env answers code raw) := by
  have hframe := processMovement_frame (g := g.interpretProtocol env raw) answers.movementReached
  have hmsg : Pushed env (g.interpretProtocol env raw) := by
    by_cases hr : raw = []
    · rwa [hr, interpretProtocol_nil]
    · have hi := interpretProtocol_of_ne_nil env (g := g) hr
      refine ⟨?_, ?_⟩
      · rw [hi.movementPushed, hostData, hi.decoded, List.map_append, h.movement]
        rfl
      · rw [hi.stimuliPushed, hostData, hi.decoded, List.map_append, h.stimuli]
        rfl
  have hdata : (g.handle env answers code raw).hostData env =
      (g.interpretProtocol env raw).hostData env := congrArg (List.map _) hframe.decoded
  exact ⟨hframe.movementPushed.trans (hmsg.movement.trans hdata.symm),
    hframe.stimuliPushed.trans (hmsg.stimuli.trans hdata.symm)⟩

theorem pushed_invariant : (machine env).Invariant fun s => Pushed env s.globals where
  init := ⟨rfl, rfl⟩
  step := by
    intro s a _ h
    cases a with
    | tcpPush msg => exact ⟨h.movement, h.stimuli⟩
    | irPush code => exact ⟨h.movement, h.stimuli⟩
    | beginTick =>
      show Pushed env (step env s .beginTick).globals
      cases ht : s.tick with
      | none => rw [step, ht]; exact ⟨h.movement, h.stimuli⟩
      | some t => rw [step, ht]; exact h
    | pop =>
      show Pushed env (step env s .pop).globals
      rw [step]
      split
      · exact ⟨h.movement, h.stimuli⟩
      · exact h
    | finishTick answers =>
      show Pushed env (step env s (.finishTick answers)).globals
      rw [step]
      split
      · exact h.handle answers _ _
      · exact h

/-- The network queue and the string in hand, without the program. -/
structure SameHandoff (s : Threads) (t : Handoff Str) : Prop where
  queue : t.queue = s.globals.tcpQueue
  register : t.register = s.register
  handled : t.handled = s.globals.decoded
  pushed : t.pushed = s.pushed

def handoffWord (s : Threads) : Act → List (Handoff.Act Str)
  | .tcpPush msg => [.push msg]
  | .pop => if s.tick = none then [] else [.pop]
  | .finishTick _ => if s.tick = none then [] else [.handle]
  | _ => []

theorem sameHandoff_pop (env : Env) {s : Threads} {t : Handoff Str} (h : SameHandoff s t) :
    SameHandoff (step env s .pop)
      ((Handoff.machine []).runFrom t (handoffWord s .pop)) := by
  rw [handoffWord]
  cases ht : s.tick with
  | none =>
    rw [if_pos rfl, step, ht]
    exact h
  | some r =>
    rw [if_neg (by simp), step, ht]
    show SameHandoff _ (Handoff.step [] t .pop)
    rw [Handoff.step, h.queue]
    cases hq : s.globals.tcpQueue with
    | nil => exact h
    | cons front queue => exact ⟨rfl, rfl, h.handled, h.pushed⟩

theorem sameHandoff_finishTick {s : Threads} {t : Handoff Str} (h : SameHandoff s t)
    (answers : Answers) : SameHandoff (step env s (.finishTick answers))
      ((Handoff.machine []).runFrom t (handoffWord s (.finishTick answers))) := by
  rw [handoffWord]
  cases ht : s.tick with
  | none =>
    rw [if_pos rfl, step, ht]
    exact h
  | some r =>
    obtain ⟨code, raw⟩ := r
    rw [if_neg (by simp), step, ht]
    show SameHandoff _ (Handoff.step [] t .handle)
    rw [Handoff.step, h.queue]
    cases hq : s.globals.tcpQueue with
    | nil =>
      have hr : t.register = raw := by rw [h.register, register, ht]; rfl
      rw [if_pos rfl]
      refine ⟨?_, rfl, ?_, h.pushed⟩
      · rw [handle_tcpQueue, hq]
      · rw [handle_decoded, h.handled, hr]
    | cons front queue =>
      rw [if_neg (by simp)]
      exact h

/-- The program, seen as the hand-over of its network queue. -/
def handoffSimulation (env : Env) :
    Machine.Simulation (machine env) (Handoff.machine ([] : Str)) where
  rel := SameHandoff
  word := handoffWord
  init := ⟨rfl, rfl, rfl, rfl⟩
  step := by
    intro s t a _ h
    cases a with
    | tcpPush msg =>
      exact ⟨congrArg (· ++ [msg]) h.queue, h.register, h.handled, congrArg (· ++ [msg]) h.pushed⟩
    | irPush code => exact ⟨h.queue, h.register, h.handled, h.pushed⟩
    | beginTick =>
      show SameHandoff (step env s .beginTick) t
      cases ht : s.tick with
      | none =>
        have hr : t.register = [] := by rw [h.register, register, ht]; rfl
        rw [step, ht]
        exact ⟨h.queue, hr, h.handled, h.pushed⟩
      | some r =>
        rw [step, ht]
        exact h
    | pop => exact sameHandoff_pop env h
    | finishTick answers => exact sameHandoff_finishTick h answers

/-- A step is at most one step of the hand-over, which overwrites when it does. -/
theorem handoffWord_cases {s : Threads} {t : Handoff Str} (h : SameHandoff s t) (a : Act) :
    (handoffWord s a = [] ∧ ¬ Overwrites s a) ∨
      ∃ b, handoffWord s a = [b] ∧ (Handoff.Overwrites [] t b ↔ Overwrites s a) := by
  cases a with
  | tcpPush msg => exact Or.inr ⟨_, rfl, Iff.rfl⟩
  | irPush code => exact Or.inl ⟨rfl, fun h => h⟩
  | beginTick => exact Or.inl ⟨rfl, fun h => h⟩
  | finishTick answers =>
    cases ht : s.tick with
    | none => exact Or.inl ⟨by rw [handoffWord, if_pos ht], fun h => h⟩
    | some r => exact Or.inr ⟨_, by rw [handoffWord, if_neg (by simp [ht])], Iff.rfl⟩
  | pop =>
    cases ht : s.tick with
    | none =>
      refine Or.inl ⟨by rw [handoffWord, if_pos ht], fun ho => ho.1 ?_⟩
      rw [register, ht]
      rfl
    | some r =>
      refine Or.inr ⟨.pop, by rw [handoffWord, if_neg (by simp [ht])], ?_⟩
      rw [Handoff.Overwrites, h.queue, h.register]
      exact and_comm

/-- The order of the messages, apart from what is pushed on the queues. -/
def Ordered (s : Threads) : Prop :=
  s.globals.decoded ++ messages [s.register] ++ messages s.globals.tcpQueue = messages s.pushed

theorem ordered_iff_intact {s : Threads} {t : Handoff Str} (h : SameHandoff s t) :
    Ordered s ↔ Handoff.Intact [] t := by
  rw [Ordered, Handoff.Intact, Handoff.kept, h.handled, h.register, h.queue, h.pushed]

/-- One step: only popping behind a message breaks the order. -/
theorem ordered_step {s : Threads} (hs : (machine env).Reachable s) (a : Act) :
    Ordered (step env s a) ↔ Ordered s ∧ ¬ Overwrites s a := by
  obtain ⟨acts, rfl⟩ := hs
  have hrel : SameHandoff _ _ := (handoffSimulation env).run acts
  have hrel' : SameHandoff _ _ :=
    (handoffSimulation env).step _ _ a (Machine.reachable_run _ acts) hrel
  rw [ordered_iff_intact hrel]
  refine (ordered_iff_intact hrel').trans ?_
  rcases handoffWord_cases hrel a with ⟨hw, ho⟩ | ⟨b, hw, ho⟩
  · rw [show (handoffSimulation env).word _ a = [] from hw]
    exact (and_iff_left ho).symm
  · rw [show (handoffSimulation env).word _ a = [b] from hw, ← ho]
    exact Handoff.intact_step (Machine.reachable_run _ _)

/-- **No message is lost, repeated or reordered** in exactly the runs in which no tick
pops another string behind a message. -/
theorem delivered_iff (acts : List Act) : Delivered env ((machine env).run acts) ↔
    ∀ x ∈ (machine env).steps acts, ¬ Overwrites x.1 x.2 := by
  have hpushed : Pushed env ((machine env).run acts).globals := pushed_invariant.run acts
  have horder : Ordered ((machine env).run acts) ↔
      ∀ x ∈ (machine env).steps acts, ¬ Overwrites x.1 x.2 :=
    Machine.run_iff_steps (m := machine env) (P := Ordered) (G := fun s a => ¬ Overwrites s a) rfl
      (fun _ a hs => ordered_step hs a) acts
  rw [← horder]
  exact ⟨fun h => h.order, fun h => ⟨h, hpushed.movement, hpushed.stimuli⟩⟩

/-- Two records arrive between two ticks; the first is never decoded. -/
theorem message_lost : ¬ Delivered oneSecond ((machine oneSecond).run
    [.tcpPush "001010.00090.000010025009010".toList, .tcpPush "002010.00045.000010025009010".toList,
      .beginTick, .pop, .pop, .finishTick arrived]) :=
  fun h => absurd h.order (by decide +kernel)

/-! ### Ticks as a whole -/

/-- The loop waits for the tick under way: it has not popped what that tick popped,
and gets what was pushed for the next one later. -/
inductive SameLoop (s : Threads) (g : Globals) : Prop
  | between (tick : s.tick = none) (globals : g = s.globals)
  | during (code raw : Str) (codes popped : List Str) (tick : s.tick = some (code, raw))
      (code_eq : drain codes "xx".toList = code) (raw_eq : drain popped [] = raw)
      (globals : g = { s.globals with irQueue := codes, tcpQueue := popped ++ s.globals.tcpQueue })

/-- A tick happens when it finishes; codes pushed since it began follow it. -/
def loopWord (s : Threads) : Act → List Main.Act
  | .tcpPush msg => [.tcpPush msg]
  | .irPush code => if s.tick = none then [.irPush code] else []
  | .finishTick answers =>
    if s.tick ≠ none ∧ s.globals.tcpQueue = [] then
      .tick answers :: s.globals.irQueue.map .irPush
    else []
  | _ => []

theorem interpretProtocol_irQueue (g : Globals) (raw : Str) (codes : List Str) :
    { g with irQueue := codes }.interpretProtocol env raw =
      { g.interpretProtocol env raw with irQueue := codes } := by
  unfold interpretProtocol queueStimulus queueMovement
  split
  · rfl
  · simp only
    split <;> split <;> rfl

theorem vProcessMovement_irQueue (g : Globals) (codes : List Str) :
    { g with irQueue := codes }.vProcessMovement =
      { g.vProcessMovement with irQueue := codes } := by
  cases hq : g.movementQueue with
  | nil => simp only [vProcessMovement, hq]
  | cons front rest => simp only [vProcessMovement, hq, execute]

theorem processMovement_irQueue (g : Globals) (reached : Bool) (codes : List Str) :
    { g with irQueue := codes }.processMovement reached =
      { g.processMovement reached with irQueue := codes } := by
  unfold processMovement
  show (if g.movementQueue = [] then _ else
    if reached = true ∨ g.movementSkip = true then _ else
      if g.bIsFirstCall = true then _ else _) = _
  split_ifs
  · rfl
  · exact vProcessMovement_irQueue g codes
  · exact vProcessMovement_irQueue { g with bIsFirstCall := false } codes
  · rfl

theorem handle_irQueue (env : Env) (g : Globals) (answers : Answers) (code raw : Str)
    (codes : List Str) :
    { g with irQueue := codes }.handle env answers code raw =
      { g.handle env answers code raw with irQueue := codes } := by
  rw [handle, interpretProtocol_irQueue, processMovement_irQueue]
  rfl

theorem runFrom_irPush (g : Globals) (codes : List Str) :
    (Main.machine env).runFrom g (codes.map .irPush) =
      { g with irQueue := g.irQueue ++ codes } := by
  induction codes generalizing g with
  | nil => rw [List.append_nil]; rfl
  | cons code codes ih =>
    rw [List.map_cons, Machine.runFrom_cons, ih]
    show { g with irQueue := g.irQueue ++ [code] ++ codes } = _
    rw [List.append_assoc]
    rfl

theorem sameLoop_finishTick {s : Threads} {code raw : Str} {codes popped : List Str}
    (tick : s.tick = some (code, raw)) (hcode : drain codes "xx".toList = code)
    (hraw : drain popped [] = raw) (hq : s.globals.tcpQueue = []) (answers : Answers) :
    SameLoop (step env s (.finishTick answers)) ((Main.machine env).runFrom
      { s.globals with irQueue := codes, tcpQueue := popped ++ s.globals.tcpQueue }
      (loopWord s (.finishTick answers))) := by
  have hir : (s.globals.handle env answers code raw).irQueue = s.globals.irQueue := by
    have h := handle_irQueue env s.globals answers code raw s.globals.irQueue
    rw [show { s.globals with irQueue := s.globals.irQueue } = s.globals from rfl] at h
    rw [h]
  have htick : Main.step env
      { s.globals with irQueue := codes, tcpQueue := popped ++ s.globals.tcpQueue }
      (.tick answers) = { s.globals.handle env answers code raw with irQueue := [] } := by
    rw [← handle_irQueue]
    show Globals.handle env _ answers (drain codes _) (drain (popped ++ s.globals.tcpQueue) []) = _
    rw [hq, List.append_nil, hcode, hraw]
  refine .between ?_ ?_
  · rw [step, tick, hq]
  · rw [loopWord, if_pos ⟨by rw [tick]; simp, hq⟩, Machine.runFrom_cons,
      show (Main.machine env).step = Main.step env from rfl, htick, runFrom_irPush, step, tick, hq,
      List.nil_append, ← hir]

/-- **Whatever the threads do, the ticks are those of the loop.** -/
def threadsSimulation (env : Env) : Machine.Simulation (machine env) (Main.machine env) where
  rel := SameLoop
  word := loopWord
  init := .between rfl rfl
  step := by
    intro s g a _ h
    rcases h with ⟨ht, rfl⟩ | ⟨code, raw, codes, popped, ht, hcode, hraw, rfl⟩
    · cases a with
      | tcpPush msg => exact .between ht rfl
      | irPush code =>
        rw [loopWord, if_pos ht]
        exact .between ht rfl
      | beginTick =>
        have hs : step env s .beginTick = ⟨{ s.globals with irQueue := [] },
            some (drain s.globals.irQueue "xx".toList, []), s.pushed⟩ := by rw [step, ht]
        exact .during _ [] s.globals.irQueue [] (congrArg Threads.tick hs) rfl rfl
          (by rw [show (machine env).step s .beginTick = _ from hs]; rfl)
      | pop =>
        have hs : step env s .pop = s := by rw [step, ht]
        exact .between ((congrArg Threads.tick hs).trans ht) (congrArg Threads.globals hs).symm
      | finishTick answers =>
        have hs : step env s (.finishTick answers) = s := by rw [step, ht]
        rw [loopWord, if_neg (by simp [ht])]
        exact .between ((congrArg Threads.tick hs).trans ht) (congrArg Threads.globals hs).symm
    · cases a with
      | tcpPush msg =>
        exact .during code raw codes popped ht hcode hraw (by
          show { s.globals with
            irQueue := codes, tcpQueue := popped ++ s.globals.tcpQueue ++ [msg] } = _
          rw [List.append_assoc]
          rfl)
      | irPush code' =>
        rw [loopWord, if_neg (by simp [ht])]
        exact .during code raw codes popped ht hcode hraw rfl
      | beginTick =>
        have hs : step env s .beginTick = s := by rw [step, ht]
        exact .during code raw codes popped ((congrArg Threads.tick hs).trans ht) hcode hraw
          (by rw [show (machine env).step s .beginTick = s from hs]; rfl)
      | pop =>
        cases hq : s.globals.tcpQueue with
        | nil =>
          have hs : step env s .pop = s := by rw [step, ht, hq]
          exact .during code raw codes popped ((congrArg Threads.tick hs).trans ht) hcode hraw
            (by rw [show (machine env).step s .pop = s from hs, hq]; rfl)
        | cons front queue =>
          have hs : step env s .pop =
              ⟨{ s.globals with tcpQueue := queue }, some (code, front), s.pushed⟩ := by
            rw [step, ht, hq]
          exact .during code front codes (popped ++ [front]) (congrArg Threads.tick hs) hcode
            (drain_concat _ _ _)
            (by rw [show (machine env).step s .pop = _ from hs, List.append_assoc]; rfl)
      | finishTick answers =>
        by_cases hq : s.globals.tcpQueue = []
        · exact sameLoop_finishTick ht hcode hraw hq answers
        · obtain ⟨front, queue, hq'⟩ := List.exists_cons_of_ne_nil hq
          have hs : step env s (.finishTick answers) = s := by rw [step, ht, hq']
          rw [loopWord, if_neg (fun h => hq h.2)]
          exact .during code raw codes popped ((congrArg Threads.tick hs).trans ht) hcode hraw
            (by rw [show (machine env).step s (.finishTick answers) = s from hs]; rfl)

/-- Between two ticks the globals are a state of the loop. -/
theorem reachable_globals {s : Threads} (h : (machine env).Reachable s) (ht : s.tick = none) :
    (Main.machine env).Reachable s.globals := by
  obtain ⟨acts, rfl⟩ := h
  have hrel : SameLoop _ _ := (threadsSimulation env).run acts
  rcases hrel with ⟨-, hg⟩ | ⟨code, raw, codes, popped, hd, -, -, -⟩
  · exact ⟨_, hg⟩
  · rw [ht] at hd
    exact absurd hd (by simp)

end Threads

end Orbiter.Main
