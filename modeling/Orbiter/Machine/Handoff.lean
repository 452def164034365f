import Orbiter.Machine.Run

/-!
# Handing messages over through a queue and one register

A producer pushes messages on a queue.  A consumer pops them, one at a time,
into a single register and, once it has found the queue empty, handles what the
register holds unless that is `blank`.  Popping overwrites the register.

* `Intact`: the messages handled, held and still queued are the non-blank messages
  pushed, in their order.
* `intact_step`: **only a pop that overwrites a message breaks this**, and nothing
  repairs it.
-/

namespace Orbiter

/-- The queue, the register, and the history of pushes and of handled messages. -/
structure Handoff (α : Type*) where
  queue : List α
  register : α
  handled : List α
  pushed : List α

namespace Handoff

variable {α : Type*} [DecidableEq α] (blank : α)

inductive Act (α : Type*)
  | push (a : α)
  | pop
  | handle

def messages (l : List α) : List α := l.filter fun a => a ≠ blank

def step (s : Handoff α) : Act α → Handoff α
  | .push a => { s with queue := s.queue ++ [a], pushed := s.pushed ++ [a] }
  | .pop =>
    match s.queue with
    | [] => s
    | a :: queue => { s with queue := queue, register := a }
  | .handle =>
    if s.queue = [] then
      { s with handled := s.handled ++ messages blank [s.register], register := blank }
    else s

def machine : Machine (Handoff α) (Act α) where
  init := ⟨[], blank, [], []⟩
  step := step blank

/-- The messages handled, held and still queued, oldest first. -/
def kept (s : Handoff α) : List α :=
  s.handled ++ messages blank [s.register] ++ messages blank s.queue

def Intact (s : Handoff α) : Prop := kept blank s = messages blank s.pushed

/-- The pop writes over a message that was not handled. -/
def Overwrites (s : Handoff α) (a : Act α) : Prop :=
  match a with
  | .pop => s.queue ≠ [] ∧ s.register ≠ blank
  | _ => False

@[simp] theorem messages_nil : messages blank ([] : List α) = [] := rfl

@[simp] theorem messages_append (l l' : List α) :
    messages blank (l ++ l') = messages blank l ++ messages blank l' := List.filter_append _ _

@[simp] theorem messages_blank : messages blank [blank] = [] := by simp [messages]

theorem messages_cons (a : α) (l : List α) :
    messages blank (a :: l) = messages blank [a] ++ messages blank l := by
  rw [← messages_append]; rfl

theorem messages_of_ne {a : α} (h : a ≠ blank) : messages blank [a] = [a] := by
  simp [messages, h]

variable {blank}

/-! ### One step -/

theorem kept_push (s : Handoff α) (a : α) :
    kept blank (step blank s (.push a)) = kept blank s ++ messages blank [a] := by
  simp only [kept, step, messages_append, List.append_assoc]

theorem kept_handle (s : Handoff α) : kept blank (step blank s .handle) = kept blank s := by
  by_cases h : s.queue = []
  · simp only [kept, step, h, ↓reduceIte, messages_blank, messages_nil, List.append_nil]
  · simp only [step, if_neg h]

theorem kept_pop {s : Handoff α} (h : ¬ Overwrites blank s .pop) :
    kept blank (step blank s .pop) = kept blank s := by
  cases hq : s.queue with
  | nil => simp only [step, hq]
  | cons a queue =>
    have hr : s.register = blank := by
      by_contra hne
      exact h ⟨by rw [hq]; simp, hne⟩
    simp only [kept, step, hq, hr, messages_blank, List.append_nil, List.append_assoc]
    rw [messages_cons blank a queue]

/-- An overwriting pop makes the history one message shorter. -/
theorem length_kept_pop {s : Handoff α} (h : Overwrites blank s .pop) :
    (kept blank (step blank s .pop)).length + 1 = (kept blank s).length := by
  cases hq : s.queue with
  | nil => exact absurd hq h.1
  | cons a queue =>
    simp only [kept, step, hq, messages_of_ne blank h.2]
    rw [messages_cons blank a queue]
    simp only [List.length_append, List.length_singleton]
    omega

/-- Whatever happens, the history is never longer than the messages pushed. -/
theorem length_kept_le : (machine blank).Invariant
    fun s => (kept blank s).length ≤ (messages blank s.pushed).length where
  init := by simp [machine, kept]
  step := by
    intro s a _ h
    cases a with
    | push a =>
      have hk : kept blank (step blank s (.push a)) = kept blank s ++ messages blank [a] :=
        kept_push s a
      show (kept blank (step blank s (.push a))).length ≤ _
      rw [hk]
      simp only [machine, step, messages_append, List.length_append]
      omega
    | pop =>
      have hp : (step blank s .pop).pushed = s.pushed := by
        cases hq : s.queue <;> simp [step, hq]
      show (kept blank (step blank s .pop)).length ≤
        (messages blank (step blank s .pop).pushed).length
      rw [hp]
      by_cases ho : Overwrites blank s .pop
      · have := length_kept_pop ho
        omega
      · rw [kept_pop ho]
        exact h
    | handle =>
      have hp : (step blank s .handle).pushed = s.pushed := by
        simp only [step]; split <;> rfl
      show (kept blank (step blank s .handle)).length ≤
        (messages blank (step blank s .handle).pushed).length
      rw [hp, kept_handle]
      exact h

/-- **Nothing is lost, repeated or reordered but by overwriting a message.** -/
theorem intact_step {s : Handoff α} {a : Act α} (hs : (machine blank).Reachable s) :
    Intact blank (step blank s a) ↔ Intact blank s ∧ ¬ Overwrites blank s a := by
  cases a with
  | push a =>
    have hp : messages blank (step blank s (.push a)).pushed =
        messages blank s.pushed ++ messages blank [a] := messages_append _ _ _
    rw [Intact, kept_push, hp, List.append_cancel_right_eq]
    simp [Intact, Overwrites]
  | handle =>
    have hp : (step blank s .handle).pushed = s.pushed := by
      simp only [step]; split <;> rfl
    rw [Intact, kept_handle, hp]
    simp [Intact, Overwrites]
  | pop =>
    have hp : (step blank s .pop).pushed = s.pushed := by
      cases hq : s.queue <;> simp [step, hq]
    by_cases ho : Overwrites blank s .pop
    · have hlen := length_kept_pop ho
      have hle := length_kept_le.of_reachable hs
      constructor
      · intro h
        have := congrArg List.length h
        rw [hp] at this
        omega
      · exact fun h => absurd ho h.2
    · rw [Intact, kept_pop ho, hp]
      simp [Intact, ho]

end Handoff

end Orbiter
