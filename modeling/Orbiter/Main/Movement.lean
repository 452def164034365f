import Orbiter.Main.Timer
import Orbiter.Machine.FlushQueue

/-!
# Movements

The movement queue over whole runs.  A message either queues a movement, or is
instant: it clears the queue, takes its place and lets the next movement step go
ahead without asking the motor.

* `executed_append_movementQueue`: **movements are conserved and ordered**.
* `movementSkip_spent`: the permission to skip is used up in the tick that gave it.
* `queuedWaits_iff`: **a queued movement waits for the running one** in exactly the
  runs whose first call has not been left over for it.
-/

namespace Orbiter.Main

open Cxx Toolbox Stimuli Globals

variable {env : Env}

/-- The next tick handles a message that clears the movement queue. -/
def Globals.Instant (env : Env) (g : Globals) : Prop :=
  g.message ≠ [] ∧ (decodeHostData env.pow g.message 0).movQueued = false

instance (g : Globals) : Decidable (g.Instant env) := by unfold Globals.Instant; infer_instance

/-! ### Conservation -/

def clearedBy (env : Env) (g : Globals) : Act → List Ref
  | .tick _ => if g.Instant env then g.movementQueue else []
  | _ => []

/-- The movements cleared in a run: those that waited when an instant one came. -/
def cleared (env : Env) (acts : List Act) : List Ref :=
  ((machine env).steps acts).flatMap fun x => clearedBy env x.1 x.2

def messageWord (env : Env) (g : Globals) : List (FlushQueue.Act Ref) :=
  if g.message = [] then []
  else if g.Instant env then [.flush, .arrive g.heap.next]
  else [.arrive g.heap.next]

def movementWord (env : Env) (g : Globals) : Act → List (FlushQueue.Act Ref)
  | .tick answers =>
    messageWord env g ++
      if (g.afterMovement env answers).executed = g.executed then [] else [.serve]
  | _ => []

structure SameQueue (g : Globals) (t : FlushQueue Ref) : Prop where
  waiting : t.waiting = g.movementQueue
  arrived : t.arrived = List.range g.heap.next
  served : t.served = g.executed

theorem sameQueue_afterMessage (env : Env) {g : Globals} {t : FlushQueue Ref} (h : SameQueue g t) :
    SameQueue (g.afterMessage env) (FlushQueue.machine.runFrom t (messageWord env g)) ∧
      (FlushQueue.machine.runFrom t (messageWord env g)).dropped =
        t.dropped ++ if g.Instant env then g.movementQueue else [] := by
  rw [messageWord]
  by_cases hm : g.message = []
  · have hi : ¬ g.Instant env := fun hi => hi.1 hm
    rw [if_pos hm, if_neg hi, afterMessage_of_nil env hm]
    exact ⟨⟨h.waiting, h.arrived, h.served⟩, (List.append_nil _).symm⟩
  · have hmsg := afterMessage_of_ne_nil env hm
    have harrived : t.arrived ++ [g.heap.next] = List.range (g.afterMessage env).heap.next := by
      rw [h.arrived, hmsg.heap, Store.next_alloc, List.range_succ]
    have hserved : t.served = (g.afterMessage env).executed := by rw [h.served, hmsg.executed]
    rw [if_neg hm]
    by_cases hi : g.Instant env
    · rw [if_pos hi, if_pos hi]
      refine ⟨⟨?_, harrived, hserved⟩, congrArg (t.dropped ++ ·) h.waiting⟩
      rw [hmsg.movementQueue, if_neg (by rw [hi.2]; simp)]
      rfl
    · have hq : (decodeHostData env.pow g.message 0).movQueued = true := by
        rw [← Bool.not_eq_false]
        exact fun hq => hi ⟨hm, hq⟩
      rw [if_neg hi, if_neg hi]
      refine ⟨⟨?_, harrived, hserved⟩, (List.append_nil _).symm⟩
      rw [hmsg.movementQueue, if_pos hq]
      exact congrArg (· ++ [g.heap.next]) h.waiting

theorem sameQueue_execute {g : Globals} {t : FlushQueue Ref} (h : SameQueue g t) {front : Ref}
    {rest : List Ref} (hq : g.movementQueue = front :: rest) :
    SameQueue (g.execute front rest) (FlushQueue.step t .serve) := by
  have hw : t.waiting = front :: rest := h.waiting.trans hq
  rw [FlushQueue.step, hw]
  exact ⟨rfl, h.arrived, congrArg (· ++ [front]) h.served⟩

theorem sameQueue_processMovement {g : Globals} {t : FlushQueue Ref} (h : SameQueue g t)
    (reached : Bool) :
    SameQueue (g.processMovement reached) (FlushQueue.machine.runFrom t
      (if (g.processMovement reached).executed = g.executed then [] else [.serve])) := by
  rcases processMovement_cases (g := g) reached with
    ⟨-, hp⟩ | ⟨front, rest, hq, -, hp⟩ | ⟨front, rest, hq, -, -, -, hp⟩ | ⟨-, -, -, -, hp⟩
  · rw [hp, if_pos rfl]
    exact h
  · rw [hp, if_neg (by simp [execute])]
    exact sameQueue_execute h hq
  · rw [hp, if_neg (by simp [execute])]
    exact sameQueue_execute (g := { g with bIsFirstCall := false })
      ⟨h.waiting, h.arrived, h.served⟩ hq
  · rw [hp, if_pos rfl]
    exact h

/-- **The movement queue of the program is a queue that can be flushed.** -/
theorem sameQueue_tick {g : Globals} {t : FlushQueue Ref} (h : SameQueue g t) (answers : Answers) :
    SameQueue (g.timerFunc env answers)
      (FlushQueue.machine.runFrom t (movementWord env g (.tick answers))) := by
  have hmove := sameQueue_processMovement (sameQueue_afterMessage env h).1
    answers.movementReached
  rw [(afterMessage_frame env g).executed] at hmove
  have hnext : (g.timerFunc env answers).heap.next = (g.afterMovement env answers).heap.next := by
    rw [(started_timerFunc env g answers).next]
    exact congrArg Store.next (processMovement_frame (g := g.afterMessage env) _).heap.symm
  rw [movementWord, Machine.runFrom_append]
  exact ⟨hmove.waiting, by rw [hnext]; exact hmove.arrived, hmove.served⟩

/-- The program, seen as its movement queue. -/
def movementSimulation (env : Env) : Machine.Simulation (machine env)
    (FlushQueue.machine (α := Ref)) where
  rel := SameQueue
  word := movementWord env
  init := ⟨rfl, rfl, rfl⟩
  step := by
    intro g t a _ h
    cases a with
    | tcpPush msg => exact ⟨h.waiting, h.arrived, h.served⟩
    | irPush code => exact ⟨h.waiting, h.arrived, h.served⟩
    | tick answers => exact sameQueue_tick h answers

theorem dropped_movementWord {g : Globals} {t : FlushQueue Ref} (h : SameQueue g t) (a : Act) :
    (FlushQueue.machine.runFrom t (movementWord env g a)).dropped =
      t.dropped ++ clearedBy env g a := by
  cases a with
  | tcpPush msg => exact (List.append_nil _).symm
  | irPush code => exact (List.append_nil _).symm
  | tick answers =>
    have hmsg := (sameQueue_afterMessage env h).2
    rw [movementWord, Machine.runFrom_append, clearedBy, ← hmsg]
    split
    · rfl
    · show (FlushQueue.step _ .serve).dropped = _
      rw [FlushQueue.step]
      split <;> rfl

theorem dropped_words (acts : List Act) :
    (FlushQueue.machine.run ((movementSimulation env).words acts)).dropped = cleared env acts := by
  induction acts using List.reverseRecOn with
  | nil => rfl
  | append_singleton acts a ih =>
    have hrel := (movementSimulation env).run acts
    rw [Machine.Simulation.words_concat, Machine.run_append, cleared, Machine.steps_concat,
      List.flatMap_append, List.flatMap_singleton]
    exact (dropped_movementWord hrel a).trans (congrArg (· ++ _) ih)

/-- **Movements are conserved and ordered**: the executed ones followed by the
waiting ones are the decoded ones in the order of arrival, less those cleared by a
later instant message; none is executed twice, and the store holds what each message
decoded to. -/
theorem executed_append_movementQueue (acts : List Act) :
    let g := (machine env).run acts
    g.executed ++ g.movementQueue =
        (List.range g.decoded.length).filter (fun r => r ∉ cleared env acts) ∧
      (g.executed ++ g.movementQueue).Nodup ∧ Started (g.hostData env) g.heap := by
  intro g
  have hstore : Started (g.hostData env) g.heap := started_hostData.run acts
  have hlen : g.heap.next = g.decoded.length := by
    rw [hstore.next, Store.next, hostData, List.length_map]
  have hrel : SameQueue g (FlushQueue.machine.run ((movementSimulation env).words acts)) :=
    (movementSimulation env).run acts
  have hnodup : (FlushQueue.machine.run ((movementSimulation env).words acts)).arrived.Nodup := by
    rw [hrel.arrived]
    exact List.nodup_range
  have horder := FlushQueue.served_append_waiting _ hnodup
  have hserved := FlushQueue.nodup_served _ hnodup
  rw [dropped_words, hrel.served, hrel.waiting, hrel.arrived, hlen] at horder
  rw [hrel.served, hrel.waiting] at hserved
  exact ⟨horder, hserved, hstore⟩

/-! ### The permission to skip -/

/-- Every movement that waits between two ticks was queued, and the permission to skip
is not left over. -/
structure MovementInvariant (g : Globals) : Prop where
  skip : g.movementSkip = true → g.movementQueue = []
  lt : ∀ r ∈ g.movementQueue, r < g.heap.next
  queued : ∀ r ∈ g.movementQueue, (g.heap.deref r).movQueued = true

/-- What waits behind the protocol interpretation: the instant movement alone, or
movements that were all queued. -/
inductive Waits (env : Env) (g : Globals) : Prop
  | instant (h : g.Instant env) (queue : (g.afterMessage env).movementQueue = [g.heap.next])
      (skip : (g.afterMessage env).movementSkip = true)
  | queued (h : ¬ g.Instant env)
      (lt : ∀ r ∈ (g.afterMessage env).movementQueue, r < (g.afterMessage env).heap.next)
      (queued : ∀ r ∈ (g.afterMessage env).movementQueue,
        ((g.afterMessage env).heap.deref r).movQueued = true)
      (skip : (g.afterMessage env).movementSkip = true → (g.afterMessage env).movementQueue = [])
      (ne_nil : (g.afterMessage env).movementQueue ≠ [] ↔ g.message ≠ [] ∨ g.movementQueue ≠ [])

theorem MovementInvariant.waits {g : Globals} (h : MovementInvariant g) (env : Env) :
    Waits env g := by
  by_cases hm : g.message = []
  · refine .queued (fun hi => hi.1 hm) ?_ ?_ ?_ ?_ <;> rw [afterMessage_of_nil env hm]
    · exact h.lt
    · exact h.queued
    · exact h.skip
    · simp [hm]
  · have hmsg := afterMessage_of_ne_nil env hm
    cases hq : (decodeHostData env.pow g.message 0).movQueued with
    | false =>
      refine .instant ⟨hm, hq⟩ ?_ ?_
      · rw [hmsg.movementQueue, if_neg (by simp [hq])]
      · rw [hmsg.movementSkip, hq]
        rfl
    | true =>
      have hqueue : (g.afterMessage env).movementQueue = g.movementQueue ++ [g.heap.next] := by
        rw [hmsg.movementQueue, if_pos hq]
      refine .queued (fun hi => by rw [hi.2] at hq; exact absurd hq (by simp)) ?_ ?_ ?_ ?_
      · intro r hr
        rw [hqueue, List.mem_append, List.mem_singleton] at hr
        rw [hmsg.heap, Store.next_alloc]
        rcases hr with hr | rfl
        · exact Nat.lt_succ_of_lt (h.lt r hr)
        · exact Nat.lt_succ_self _
      · intro r hr
        rw [hqueue, List.mem_append, List.mem_singleton] at hr
        rw [hmsg.heap]
        rcases hr with hr | rfl
        · rw [Store.deref_alloc_of_lt (h.lt r hr)]
          exact h.queued r hr
        · rw [Store.deref_next]
          exact hq
      · rw [hmsg.movementSkip, hq]
        exact fun hs => absurd hs (by simp)
      · rw [hqueue]
        simp [hm]

inductive TickMoves (env : Env) (g : Globals) (answers : Answers) : Prop
  | waits (h : ¬ g.Instant env)
      (executed : (g.timerFunc env answers).executed = g.executed)
      (queue : (g.timerFunc env answers).movementQueue = (g.afterMessage env).movementQueue)
      (busy : (g.message ≠ [] ∨ g.movementQueue ≠ []) →
        answers.movementReached = false ∧ g.bIsFirstCall = false)
  | instant (h : g.Instant env)
      (executed : (g.timerFunc env answers).executed = g.executed ++ [g.heap.next])
      (queue : (g.timerFunc env answers).movementQueue = [])
  | next (h : ¬ g.Instant env) (front : Ref)
      (executed : (g.timerFunc env answers).executed = g.executed ++ [front])
      (queue : (g.afterMessage env).movementQueue =
        front :: (g.timerFunc env answers).movementQueue)
      (free : answers.movementReached = true ∨
        (answers.movementReached = false ∧ g.bIsFirstCall = true))

theorem timerFunc_executed (g : Globals) (answers : Answers) : (g.timerFunc env answers).executed =
    ((g.afterMessage env).processMovement answers.movementReached).executed := rfl

theorem timerFunc_movementQueue (g : Globals) (answers : Answers) :
    (g.timerFunc env answers).movementQueue =
      ((g.afterMessage env).processMovement answers.movementReached).movementQueue := rfl

theorem MovementInvariant.tickMoves {g : Globals} (h : MovementInvariant g) (env : Env)
    (answers : Answers) :
    TickMoves env g answers := by
  have hexec := (afterMessage_frame env g).executed
  have hfirst := (afterMessage_frame env g).bIsFirstCall
  have hcases := processMovement_cases (g := g.afterMessage env) answers.movementReached
  rcases h.waits env with ⟨hi, hqueue, hskip⟩ | ⟨hi, -, -, hskip, hne⟩
  · rcases hcases with ⟨hq, -⟩ | ⟨front, rest, hq, -, hp⟩ | ⟨-, -, -, -, hs, -⟩ | ⟨-, -, hs, -⟩
    · rw [hqueue] at hq
      exact absurd hq (by simp)
    · rw [hqueue] at hq
      obtain ⟨rfl, rfl⟩ := List.cons.inj hq
      refine .instant hi ?_ ?_
      · rw [timerFunc_executed, hp, ← hexec]
        rfl
      · rw [timerFunc_movementQueue, hp]
        rfl
    · rw [hskip] at hs
      exact absurd hs (by simp)
    · rw [hskip] at hs
      exact absurd hs (by simp)
  · rcases hcases with ⟨hq, hp⟩ | ⟨front, rest, hq, hfree, hp⟩ |
      ⟨front, rest, hq, hreached, -, hf, hp⟩ | ⟨-, hreached, -, hf, hp⟩
    · refine .waits hi ?_ ?_ fun hw => absurd hq (hne.mpr hw)
      · rw [timerFunc_executed, hp, hexec]
      · rw [timerFunc_movementQueue, hp]
    · refine .next hi front ?_ ?_ (Or.inl ?_)
      · rw [timerFunc_executed, hp, ← hexec]
        rfl
      · rw [timerFunc_movementQueue, hp, hq]
        rfl
      · rcases hfree with hr | hs
        · exact hr
        · rw [hskip hs] at hq
          exact absurd hq (by simp)
    · refine .next hi front ?_ ?_ (Or.inr ⟨hreached, hfirst ▸ hf⟩)
      · rw [timerFunc_executed, hp, ← hexec]
        rfl
      · rw [timerFunc_movementQueue, hp, hq]
        rfl
    · refine .waits hi ?_ ?_ fun _ => ⟨hreached, hfirst ▸ hf⟩
      · rw [timerFunc_executed, hp, hexec]
      · rw [timerFunc_movementQueue, hp]

theorem timerFunc_next (g : Globals) (answers : Answers) :
    (g.timerFunc env answers).heap.next = (g.afterMessage env).heap.next :=
  (started_timerFunc env g answers).next

theorem timerFunc_movQueued (g : Globals) (answers : Answers) (r : Ref) :
    ((g.timerFunc env answers).heap.deref r).movQueued =
      ((g.afterMessage env).heap.deref r).movQueued := by
  rcases (started_timerFunc env g answers).deref r with h | h <;> rw [h]

theorem timerFunc_movementSkip (g : Globals) (answers : Answers) :
    (g.timerFunc env answers).movementSkip = (g.afterMessage env).movementSkip :=
  (processMovement_frame (g := g.afterMessage env) answers.movementReached).movementSkip

theorem movementInvariant : (machine env).Invariant MovementInvariant where
  init := ⟨fun _ => rfl, by simp [machine, init], by simp [machine, init]⟩
  step := by
    intro g a _ h
    cases a with
    | tcpPush msg => exact ⟨h.skip, h.lt, h.queued⟩
    | irPush code => exact ⟨h.skip, h.lt, h.queued⟩
    | tick answers =>
      show MovementInvariant (g.timerFunc env answers)
      have hsub : ∀ r ∈ (g.timerFunc env answers).movementQueue,
          ¬ g.Instant env ∧ r ∈ (g.afterMessage env).movementQueue := by
        intro r hr
        rcases h.tickMoves env answers with ⟨hi, -, hq, -⟩ | ⟨-, -, hq⟩ | ⟨hi, _, -, hq, -⟩
        · exact ⟨hi, hq ▸ hr⟩
        · rw [hq] at hr
          exact absurd hr (by simp)
        · exact ⟨hi, by rw [hq]; exact List.mem_cons_of_mem _ hr⟩
      rcases h.waits env with ⟨hi, -, -⟩ | ⟨-, hlt, hqueued, hskip, -⟩
      · have hnil : (g.timerFunc env answers).movementQueue = [] := by
          apply List.eq_nil_iff_forall_not_mem.mpr
          intro r hr
          exact (hsub r hr).1 hi
        exact ⟨fun _ => hnil, fun r hr => absurd hi (hsub r hr).1,
          fun r hr => absurd hi (hsub r hr).1⟩
      · refine ⟨?_, ?_, ?_⟩
        · intro hs
          rw [timerFunc_movementSkip] at hs
          have hnil := hskip hs
          apply List.eq_nil_iff_forall_not_mem.mpr
          intro r hr
          have hmem := (hsub r hr).2
          rw [hnil] at hmem
          exact absurd hmem (by simp)
        · intro r hr
          rw [timerFunc_next]
          exact hlt r (hsub r hr).2
        · intro r hr
          rw [timerFunc_movQueued]
          exact hqueued r (hsub r hr).2

def executedBy (env : Env) (g : Globals) (a : Act) : List Ref :=
  (step env g a).executed.drop g.executed.length

theorem executedBy_of_eq {g : Globals} {answers : Answers} {refs : List Ref}
    (h : (g.timerFunc env answers).executed = g.executed ++ refs) :
    executedBy env g (.tick answers) = refs := by
  show (g.timerFunc env answers).executed.drop _ = _
  rw [h, List.drop_left]

/-- **The permission to skip is used up in the tick that gave it**: between two ticks
it is not left over, and once the first call is over, what a tick executes without the
motor having arrived is the instant movement it has just handled. -/
theorem movementSkip_spent (g : Globals) (h : (machine env).Reachable g) :
    (g.movementSkip = true → g.movementQueue = []) ∧
      ∀ answers : Answers, g.bIsFirstCall = false → answers.movementReached = false →
        ∀ r ∈ executedBy env g (.tick answers), g.Instant env ∧ r = g.heap.next := by
  have hinv := movementInvariant.of_reachable h
  refine ⟨hinv.skip, ?_⟩
  intro answers hfirst hreached r hr
  rcases hinv.tickMoves env answers with
    ⟨-, he, -, -⟩ | ⟨hi, he, -⟩ | ⟨-, front, -, -, hfree⟩
  · rw [executedBy_of_eq (he.trans (List.append_nil _).symm)] at hr
    exact absurd hr (by simp)
  · rw [executedBy_of_eq he, List.mem_singleton] at hr
    exact ⟨hi, hr⟩
  · rw [hfirst, hreached] at hfree
    exact absurd hfree (by simp)

/-- The first call is over, the motor is on its way, and an instant movement comes. -/
theorem movementSkip_spent_instant :
    let g := (machine oneSecond).run [.tcpPush "001010.00090.000010025009010".toList, .tick busy,
      .tcpPush "001010.00090.001010025009010".toList]
    (g.movementSkip = true → g.movementQueue = []) ∧ g.bIsFirstCall = false ∧
      executedBy oneSecond g (.tick busy) = [1] ∧
      ∀ r ∈ executedBy oneSecond g (.tick busy), g.Instant oneSecond ∧ r = g.heap.next :=
  have h := movementSkip_spent ((machine oneSecond).run
    [.tcpPush "001010.00090.000010025009010".toList, .tick busy,
      .tcpPush "001010.00090.001010025009010".toList]) (Machine.reachable_run _ _)
  ⟨h.1, by decide +kernel, by decide +kernel, h.2 busy (by decide +kernel) rfl⟩

/-! ### Waiting for the running movement -/

/-- A movement that was queued is executed only when the motor has arrived, or before
the first move of the run. -/
def QueuedWaits (env : Env) (g : Globals) : Act → Prop
  | .tick answers => ∀ r ∈ executedBy env g (.tick answers),
      ((g.timerFunc env answers).heap.deref r).movQueued = true →
        answers.movementReached = true ∨ ∀ target, .move target ∉ g.remote.calls
  | _ => True

/-- The first call is still to come although the motor has been moved, and a queued
movement finds it busy. -/
def LateFirstCall (env : Env) (g : Globals) : Act → Prop
  | .tick answers => g.bIsFirstCall = true ∧ (∃ target, .move target ∈ g.remote.calls) ∧
      answers.movementReached = false ∧ ¬ g.Instant env ∧ (g.message ≠ [] ∨ g.movementQueue ≠ [])
  | _ => False

theorem Globals.Instant.not_movQueued {g : Globals} (h : g.Instant env) (answers : Answers) :
    ((g.timerFunc env answers).heap.deref g.heap.next).movQueued = false := by
  rw [timerFunc_movQueued, (afterMessage_of_ne_nil env h.1).heap, Store.deref_next]
  exact h.2

/-- One tick: only a late first call lets a queued movement cut in. -/
theorem queuedWaits_step {g : Globals} (h : MovementInvariant g) (a : Act) :
    QueuedWaits env g a ↔ ¬ LateFirstCall env g a := by
  cases a with
  | tcpPush msg => simp [QueuedWaits, LateFirstCall]
  | irPush code => simp [QueuedWaits, LateFirstCall]
  | tick answers =>
    simp only [QueuedWaits, LateFirstCall]
    rcases h.tickMoves env answers with ⟨-, he, -, hbusy⟩ | ⟨hi, he, -⟩ |
      ⟨hi, front, he, hq, hfree⟩
    · rw [executedBy_of_eq (he.trans (List.append_nil _).symm)]
      refine iff_of_true (by simp) ?_
      rintro ⟨hf, -, -, -, hw⟩
      rw [(hbusy hw).2] at hf
      exact absurd hf (by simp)
    · refine iff_of_true ?_ fun hl => hl.2.2.2.1 hi
      intro r hr hqueued
      rw [executedBy_of_eq he, List.mem_singleton] at hr
      rw [hr, hi.not_movQueued answers] at hqueued
      exact absurd hqueued (by simp)
    · have hmem : front ∈ (g.afterMessage env).movementQueue := by rw [hq]; simp
      obtain ⟨hqueued, hw⟩ : ((g.timerFunc env answers).heap.deref front).movQueued = true ∧
          (g.message ≠ [] ∨ g.movementQueue ≠ []) := by
        rcases h.waits env with ⟨hi', -, -⟩ | ⟨-, -, hqueued, -, hne⟩
        · exact absurd hi' hi
        · rw [timerFunc_movQueued]
          exact ⟨hqueued front hmem, hne.mp (List.ne_nil_of_mem hmem)⟩
      rw [executedBy_of_eq he]
      simp only [List.mem_singleton, forall_eq, hqueued, forall_const]
      constructor
      · rintro (hr | hmove) ⟨-, ⟨target, ht⟩, hr', -, -⟩
        · rw [hr] at hr'
          exact absurd hr' (by simp)
        · exact hmove target ht
      · intro hl
        rcases hfree with hr | ⟨hr, hf⟩
        · exact Or.inl hr
        · exact Or.inr fun target ht => hl ⟨hf, ⟨target, ht⟩, hr, hi, hw⟩

/-- **A queued movement waits for the running one** in exactly the runs without a late
first call. -/
theorem queuedWaits_iff (acts : List Act) :
    (∀ x ∈ (machine env).steps acts, QueuedWaits env x.1 x.2) ↔
      ∀ x ∈ (machine env).steps acts, ¬ LateFirstCall env x.1 x.2 :=
  (machine env).steps_congr
    (fun _ a hg => queuedWaits_step (movementInvariant.of_reachable hg) a) acts

/-- An instant movement is started, which leaves the first call over for the queued
one behind it. -/
theorem queued_cuts_in : ¬ ∀ x ∈ (machine oneSecond).steps
    [.tcpPush "001010.00090.001010025009010".toList, .tick busy,
      .tcpPush "001010.00090.000010025009010".toList, .tick busy],
    QueuedWaits oneSecond x.1 x.2 := by
  intro h
  have hlast := h _ ((machine oneSecond).mem_steps_concat
    [.tcpPush "001010.00090.001010025009010".toList, .tick busy,
      .tcpPush "001010.00090.000010025009010".toList] (.tick busy))
  refine (queuedWaits_step (movementInvariant.run _) (.tick busy)).mp hlast
    ⟨by decide +kernel, ⟨?_, ?_⟩, rfl, by decide +kernel, by decide +kernel⟩
  · exact truncate (65536 * 90 / 360 * railperi / wheelperi)
  · decide +kernel

end Orbiter.Main
