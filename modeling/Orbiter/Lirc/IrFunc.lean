import Orbiter.Lirc.Session

/-!
# The infrared thread on a connection

`ir_func` calls `lirc_nextcode` in a loop and makes a string of whatever pointer it gets.
Here its results are those of the calls on a connection, so that what the loop of the
program is given can be compared with what the daemon sent.

* `ir_func_lives_iff`: **the thread survives exactly as long as every call has a line when
  its one read is done.**
* `irQueue_of_sent`: **the loop is given the lines sent**, in their order, up to a point.
-/

namespace Orbiter.Lirc

open Cxx Frames
open Main (NextCode Env machine delivered beforeNull irFunc irFuncSimulation irFunc_run
  irQueue_words oneSecond)

def Session.arriving (s : Session) (len : Option Nat) : Str :=
  (Socket.read len (s.buffer.grow - s.buffer.endLen) s.socket).1.given

/-- A call has a line, in the buffer or with the read. -/
def Session.Completes (heap : Nat → Char) (s : Session) : Act → Prop
  | .write _ => True
  | .close => True
  | .nextcode len => '\n' ∈ s.buffer.held heap ++ s.arriving len

instance (heap : Nat → Char) (s : Session) (a : Act) : Decidable (s.Completes heap a) :=
  match a with
  | .write _ => inferInstanceAs (Decidable True)
  | .close => inferInstanceAs (Decidable True)
  | .nextcode len => inferInstanceAs (Decidable ('\n' ∈ s.buffer.held heap ++ s.arriving len))

variable {heap : Nat → Char}

theorem given_read (len : Option Nat) (room : Nat) (fd : Socket) :
    fd.unread = (Socket.read len room fd).1.given ++ (Socket.read len room fd).2.unread := by
  have h := reads_read len room fd
  cases hres : Socket.read len room fd with
  | mk res fd' =>
    rw [hres] at h
    cases res with
    | bytes s => exact h.2
    | again => exact h
    | failed => exact h

theorem Held.isSome_iff {s : Session} (h : Held heap s) (hnul : nul ∉ s.sent) (len : Option Nat) :
    (s.call heap len).1.code.isSome = true ↔ s.Completes heap (.nextcode len) := by
  refine lircNextcode_isSome_iff fun hmem => hnul ?_
  have hunread := given_read len (s.buffer.grow - s.buffer.endLen) s.socket
  rw [h.conserved, hunread]
  rcases List.mem_append.mp hmem with hmem | hmem
  · exact List.mem_append_right _ (List.mem_append_left _ hmem)
  · exact List.mem_append_right _ (List.mem_append_right _ (List.mem_append_left _ hmem))

theorem all_isSome_iff (acts : List Act) (hnul : nul ∉ ((session heap .fresh).run acts).sent) :
    (((session heap .fresh).run acts).results.all fun r => r.code.isSome) = true ↔
      ∀ x ∈ (session heap .fresh).steps acts, x.1.Completes heap x.2 := by
  induction acts using List.reverseRecOn with
  | nil => simp [session, Machine.steps, Machine.stepsFrom]
  | append_singleton acts a ih =>
    rw [Machine.run_concat] at hnul ⊢
    have hnul' : nul ∉ ((session heap .fresh).run acts).sent :=
      fun hmem => hnul ((sent_mono heap _ a).subset hmem)
    have h : Held heap ((session heap .fresh).run acts) :=
      held_session (b := .fresh) rfl acts hnul'
    rw [Machine.steps_concat, List.forall_mem_append, List.forall_mem_singleton, ← ih hnul']
    cases a with
    | write bytes =>
      show (Session.step heap _ _).results.all _ = true ↔ _ ∧ True
      rw [and_true, Session.step]
      split_ifs
      · exact Iff.rfl
      · exact Iff.rfl
    | close =>
      show _ ↔ _ ∧ True
      rw [and_true]
      exact Iff.rfl
    | nextcode len =>
      rw [← h.isSome_iff hnul' len]
      show (_ ++ [(Session.call heap _ len).1]).all _ = true ↔ _
      rw [List.all_append, Bool.and_eq_true, List.all_cons, List.all_nil, Bool.and_true]

/-- **The thread survives exactly as long as every call has a line when its one read is
done.** -/
theorem ir_func_lives_iff (heap : Nat → Char) (acts : List Act)
    (hnul : nul ∉ ((session heap .fresh).run acts).sent) :
    (irFunc.run ((session heap .fresh).run acts).results).nullString = false ↔
      ∀ x ∈ (session heap .fresh).steps acts, x.1.Completes heap x.2 := by
  rw [irFunc_run, Bool.not_eq_false', all_isSome_iff acts hnul]

theorem ir_func_lives_iff_pieces :
    (irFunc.run ((session (fun _ => 'x') .fresh).run pieces).results).nullString = false ↔
      ∀ x ∈ (session (fun _ => 'x') .fresh).steps pieces, x.1.Completes (fun _ => 'x') x.2 :=
  ir_func_lives_iff _ pieces (by decide)

/-- **The loop is given the lines sent**, in their order, up to a point; while the thread
lives, what it has not been given is still on the way. -/
theorem irQueue_of_sent (env : Env) (heap : Nat → Char) (acts : List Act)
    (hnul : nul ∉ ((session heap .fresh).run acts).sent) :
    ((machine env).run ((irFuncSimulation env).words
        ((session heap .fresh).run acts).results)).irQueue <+:
      frames '\n' ((session heap .fresh).run acts).sent ∧
    ((irFunc.run ((session heap .fresh).run acts).results).nullString = false →
      ((machine env).run ((irFuncSimulation env).words
          ((session heap .fresh).run acts).results)).irQueue ++
        frames '\n' (((session heap .fresh).run acts).buffer.held heap ++
          ((session heap .fresh).run acts).socket.unread) =
      frames '\n' ((session heap .fresh).run acts).sent) := by
  have h : Held heap ((session heap .fresh).run acts) := held_session (b := .fresh) rfl acts hnul
  rw [irQueue_words, h.frames_sent]
  constructor
  · have hp : beforeNull ((session heap .fresh).run acts).results <+: _ :=
      List.takeWhile_prefix _
    exact (hp.filterMap _).trans (List.prefix_append _ _)
  · intro hlives
    rw [irFunc_run, Bool.not_eq_false'] at hlives
    rw [beforeNull, List.takeWhile_eq_self_iff.mpr (List.all_eq_true.mp hlives)]

theorem irQueue_of_sent_pieces :
    ((machine oneSecond).run ((irFuncSimulation oneSecond).words
        ((session (fun _ => 'x') .fresh).run pieces).results)).irQueue <+:
      frames '\n' ((session (fun _ => 'x') .fresh).run pieces).sent ∧
    ((irFunc.run ((session (fun _ => 'x') .fresh).run pieces).results).nullString = false →
      ((machine oneSecond).run ((irFuncSimulation oneSecond).words
          ((session (fun _ => 'x') .fresh).run pieces).results)).irQueue ++
        frames '\n' (((session (fun _ => 'x') .fresh).run pieces).buffer.held (fun _ => 'x') ++
          ((session (fun _ => 'x') .fresh).run pieces).socket.unread) =
      frames '\n' ((session (fun _ => 'x') .fresh).run pieces).sent) :=
  irQueue_of_sent oneSecond _ pieces (by decide)

end Orbiter.Lirc
