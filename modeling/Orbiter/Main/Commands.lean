import Orbiter.Main.Independence
import Orbiter.Main.DigitBuffer

/-!
# What the messages command

Without key presses the remote control is driven by the executed movements alone: its
angle, its target and its commands are those of starting them one after the other.

* `executed_increasing`: no movement is executed twice or out of order.
* `remote_of_executed`: **the commands are those of the executed messages.**
-/

namespace Orbiter.Main

open Cxx Toolbox Stimuli Globals

variable {env : Env}

/-! ### The executed movements -/

/-- The movements executed and waiting, in the order of their messages. -/
theorem executed_increasing (env : Env) (acts : List Act) :
    let g := (machine env).run acts
    (g.executed ++ g.movementQueue).Pairwise (· < ·) ∧
      ∀ r ∈ g.executed ++ g.movementQueue, r < g.heap.next := by
  intro g
  have hrel : SameQueue g (FlushQueue.machine.run ((movementSimulation env).words acts)) :=
    (movementSimulation env).run acts
  have hnodup : (FlushQueue.machine.run ((movementSimulation env).words acts)).arrived.Nodup := by
    rw [hrel.arrived]
    exact List.nodup_range
  have horder := FlushQueue.served_append_waiting _ hnodup
  rw [hrel.served, hrel.waiting, hrel.arrived] at horder
  rw [horder]
  refine ⟨List.pairwise_lt_range.filter _, fun r hr => ?_⟩
  exact List.mem_range.mp (List.mem_of_mem_filter hr)

/-! ### The remote control -/

/-- The remote control behind the movements, one started after the other. -/
def Remote.started (ds : List HostData) : Remote := ds.foldl Remote.startMovement Remote.init

theorem Remote.started_congr {ds ds' : List HostData}
    (h : List.Forall₂ (fun d d' => movement d = movement d') ds ds') :
    Remote.started ds = Remote.started ds' := by
  have hfrom : ∀ r : Remote,
      ds.foldl Remote.startMovement r = ds'.foldl Remote.startMovement r := by
    induction h with
    | nil => exact fun _ => rfl
    | cons hd _ ih =>
      intro r
      rw [List.foldl_cons, List.foldl_cons, r.startMovement_congr hd]
      exact ih _
  exact hfrom _

theorem started_of_started {heap heap' : Store HostData} (h : Started heap heap')
    (refs : List Ref) :
    Remote.started (refs.map heap'.deref) = Remote.started (refs.map heap.deref) := by
  refine Remote.started_congr ?_
  rw [List.forall₂_map_left_iff, List.forall₂_map_right_iff, List.forall₂_same]
  exact fun r _ => movement_of_started h r

theorem started_alloc {heap : Store HostData} {refs : List Ref} (h : ∀ r ∈ refs, r < heap.next)
    (d : HostData) : refs.map (heap.alloc d).deref = refs.map heap.deref :=
  List.map_congr_left fun r hr => Store.deref_alloc_of_lt (h r hr) d

theorem Remote.startMovement_with (r : Remote) (d : HostData) (s : Str)
    (cTaste oldCTaste : Option Taste) :
    { r with szTxt2 := s, cTaste := cTaste, oldCTaste := oldCTaste }.startMovement d =
      { r.startMovement d with szTxt2 := s, cTaste := cTaste, oldCTaste := oldCTaste } := by
  simp only [startMovement]
  split_ifs <;> rfl

/-- No key is down, and the rest of the remote control is that of the executed movements. -/
structure Driven (g : Globals) : Prop where
  irQueue : g.irQueue = []
  remote : ∃ s, g.remote = { Remote.started (g.executed.map g.heap.deref) with
    szTxt2 := s
    cTaste := none
    oldCTaste := none }

theorem Driven.afterMessage {g : Globals} (h : Driven g)
    (hlt : ∀ r ∈ g.executed, r < g.heap.next) (env : Env) : Driven (g.afterMessage env) := by
  by_cases hm : g.message = []
  · rw [afterMessage_of_nil env hm]
    exact ⟨rfl, h.remote⟩
  · have hi := afterMessage_of_ne_nil env hm
    refine ⟨hi.irQueue, ?_⟩
    rw [hi.remote, hi.executed, hi.heap, started_alloc hlt]
    exact h.remote

theorem Driven.processMovement {g : Globals} (h : Driven g) (reached : Bool) :
    Driven (g.processMovement reached) := by
  have hexecute : ∀ (g : Globals), Driven g → ∀ front rest, Driven (g.execute front rest) := by
    intro g h front rest
    obtain ⟨s, hs⟩ := h.remote
    refine ⟨h.irQueue, s, ?_⟩
    show g.remote.startMovement (g.heap.deref front) = _
    rw [hs, Remote.startMovement_with]
    show _ = { Remote.started ((g.executed ++ [front]).map g.heap.deref) with
      szTxt2 := s, cTaste := none, oldCTaste := none }
    rw [List.map_append, Remote.started, Remote.started, List.foldl_append]
    rfl
  rcases processMovement_cases (g := g) reached with
    ⟨-, hp⟩ | ⟨front, rest, -, -, hp⟩ | ⟨front, rest, -, -, -, -, hp⟩ | ⟨-, -, -, -, hp⟩ <;> rw [hp]
  · exact h
  · exact hexecute g h front rest
  · exact hexecute { g with bIsFirstCall := false } ⟨h.irQueue, h.remote⟩ front rest
  · exact h

theorem Driven.timerFunc {g : Globals} (h : Driven g) (hlt : ∀ r ∈ g.executed, r < g.heap.next)
    (env : Env) (answers : Answers) : Driven (g.timerFunc env answers) := by
  have hmove : Driven (g.afterMovement env answers) :=
    (h.afterMessage hlt env).processMovement answers.movementReached
  have hheap : Started (g.afterMovement env answers).heap (g.timerFunc env answers).heap := by
    have hframe := (processMovement_frame (g := g.afterMessage env) answers.movementReached).heap
    rw [afterMovement, hframe]
    exact started_timerFunc env g answers
  obtain ⟨s, hs⟩ := hmove.remote
  have hkey := (key_eq_none h.irQueue).2
  have hpressed : g.pressed = none := by
    rw [Globals.pressed, hkey, ite_self]
  refine ⟨timerFunc_irQueue env g answers, g.code, ?_⟩
  rw [remote_timerFunc, hpressed, hkey, Option.elim_none, hs,
    started_of_started hheap]
  rfl

/-- **Without key presses the remote control is that of the executed messages.** -/
theorem remote_of_executed (env : Env) (acts : List Act)
    (hkeys : ∀ a ∈ acts, a.isIrPush = false) :
    let g := (machine env).run acts
    ∃ s, g.remote = { Remote.started (g.executed.map (g.hostData env).deref) with
      szTxt2 := s
      cTaste := none
      oldCTaste := none } := by
  intro g
  have hdriven : Driven g := by
    induction acts using List.reverseRecOn with
    | nil => exact ⟨rfl, [], rfl⟩
    | append_singleton acts a ih =>
      have hrun := ih fun a' ha' => hkeys a' (List.mem_append_left _ ha')
      have hlt := (executed_increasing env acts).2
      have ha := hkeys a (by simp)
      show Driven ((machine env).run (acts ++ [a]))
      rw [Machine.run_concat]
      cases a with
      | tcpPush msg => exact ⟨hrun.irQueue, hrun.remote⟩
      | irPush code => exact absurd ha (by simp [Act.isIrPush])
      | tick answers =>
        exact hrun.timerFunc (fun r hr => hlt r (List.mem_append_left _ hr)) env answers
  obtain ⟨s, hs⟩ := hdriven.remote
  exact ⟨s, by rw [hs, started_of_started (started_hostData.run acts)]⟩

end Orbiter.Main
