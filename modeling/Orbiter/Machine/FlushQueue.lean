import Orbiter.Machine.Run

/-!
# A queue that can be flushed

Jobs arrive at the back, are served from the front, and a flush drops whatever
is waiting.  The history records every arrival, every served job and every job
a flush dropped.

* `served_append_waiting`: **jobs are conserved and ordered** — as long as no
  job arrives twice, the served jobs followed by the waiting ones are the
  arrivals, in order, less exactly the dropped ones.
* `nodup_served`: no job is served twice.
* `perm_run`: every arrival is served, waiting or dropped, exactly once.
-/

namespace Orbiter

/-- What is waiting, and what arrived, was served and was dropped so far. -/
structure FlushQueue (α : Type*) where
  waiting : List α
  arrived : List α
  served : List α
  dropped : List α

namespace FlushQueue

variable {α : Type*}

inductive Act (α : Type*)
  | arrive (a : α)
  | flush
  | serve

def step (s : FlushQueue α) : Act α → FlushQueue α
  | .arrive a => { s with waiting := s.waiting ++ [a], arrived := s.arrived ++ [a] }
  | .flush => { s with waiting := [], dropped := s.dropped ++ s.waiting }
  | .serve =>
    match s.waiting with
    | [] => s
    | a :: waiting => { s with waiting := waiting, served := s.served ++ [a] }

def machine : Machine (FlushQueue α) (Act α) where
  init := ⟨[], [], [], []⟩
  step := step

/-! ### What arrives -/

theorem sublist_step (s : FlushQueue α) (a : Act α) : s.arrived.Sublist (step s a).arrived := by
  cases a with
  | arrive a => exact List.sublist_append_left _ _
  | flush => exact List.Sublist.refl _
  | serve => cases hw : s.waiting <;> simp [step, hw]

/-- Every arrival is served, waiting or dropped, exactly once. -/
theorem perm_run (acts : List (Act α)) :
    ((machine.run acts).served ++ (machine.run acts).waiting ++
      (machine.run acts).dropped).Perm (machine.run acts).arrived := by
  induction acts using List.reverseRecOn with
  | nil => exact List.Perm.refl _
  | append_singleton acts a ih =>
    rw [Machine.run_concat]
    generalize machine.run acts = s at ih
    show ((step s a).served ++ (step s a).waiting ++ (step s a).dropped).Perm (step s a).arrived
    cases a with
    | arrive a =>
      have hnew := ih.append_right [a]
      refine List.Perm.trans ?_ hnew
      simp only [step, List.append_assoc]
      refine (List.Perm.append_left _ ?_)
      exact List.Perm.append_left _ List.perm_append_comm
    | flush =>
      refine List.Perm.trans ?_ ih
      simp only [step, List.append_nil, List.append_assoc]
      exact List.Perm.append_left _ List.perm_append_comm
    | serve =>
      refine List.Perm.trans (List.Perm.of_eq ?_) (ih.trans (List.Perm.of_eq ?_))
      · cases hw : s.waiting <;> simp [step, hw]
      · cases hw : s.waiting <;> simp [step, hw]

variable [DecidableEq α]

/-- The law of the queue: what is served or waiting is what arrived and was not
dropped, in the order of arrival. -/
structure Conserved (s : FlushQueue α) : Prop where
  order : s.served ++ s.waiting = s.arrived.filter fun a => a ∉ s.dropped
  dropped_subset : s.dropped ⊆ s.arrived

theorem Conserved.nodup {s : FlushQueue α} (h : Conserved s) (hn : s.arrived.Nodup) :
    (s.served ++ s.waiting).Nodup := by
  rw [h.order]; exact hn.filter _

theorem Conserved.step {s : FlushQueue α} (h : Conserved s) {a : Act α}
    (hn : (step s a).arrived.Nodup) : Conserved (step s a) := by
  cases a with
  | arrive a =>
    have hnew : a ∉ s.arrived := by
      have := (List.nodup_append.mp hn).2.2
      exact fun hm => this a hm a (by simp) rfl
    have hd : a ∉ s.dropped := fun hm => hnew (h.dropped_subset hm)
    refine ⟨?_, fun b hb => List.mem_append_left _ (h.dropped_subset hb)⟩
    have hkeep : [a].filter (fun b => b ∉ s.dropped) = [a] :=
      List.filter_eq_self.mpr (by simpa using hd)
    show s.served ++ (s.waiting ++ [a]) = (s.arrived ++ [a]).filter fun b => b ∉ s.dropped
    rw [← List.append_assoc, h.order, List.filter_append, hkeep]
  | flush =>
    have hnodup := h.nodup (List.Nodup.sublist (sublist_step s .flush) hn)
    have hdisj : ∀ b ∈ s.served, b ∉ s.waiting := fun b hb hw =>
      (List.nodup_append.mp hnodup).2.2 b hb b hw rfl
    refine ⟨?_, ?_⟩
    · simp only [FlushQueue.step, List.append_nil, List.mem_append, not_or]
      have hsplit : s.arrived.filter (fun b => b ∉ s.dropped ∧ b ∉ s.waiting) =
          (s.arrived.filter fun b => b ∉ s.dropped).filter fun b => b ∉ s.waiting := by
        rw [List.filter_filter]
        apply List.filter_congr
        intro b _
        simp [and_comm]
      rw [hsplit, ← h.order, List.filter_append, List.filter_eq_self.mpr (by simpa using hdisj),
        List.filter_eq_nil_iff.mpr (by simp), List.append_nil]
    · intro b hb
      rcases List.mem_append.mp hb with hb | hb
      · exact h.dropped_subset hb
      · have : b ∈ s.served ++ s.waiting := List.mem_append_right _ hb
        rw [h.order] at this
        exact (List.mem_filter.mp this).1
  | serve =>
    cases hw : s.waiting with
    | nil => simpa only [FlushQueue.step, hw] using h
    | cons b waiting =>
      have ho := h.order
      rw [hw] at ho
      refine ⟨?_, ?_⟩
      · simp only [FlushQueue.step, hw, List.append_assoc, List.singleton_append]
        exact ho
      · simp only [FlushQueue.step, hw]
        exact h.dropped_subset

theorem conserved_run (acts : List (Act α)) (hn : (machine.run acts).arrived.Nodup) :
    Conserved (machine.run acts) := by
  induction acts using List.reverseRecOn with
  | nil => exact ⟨rfl, fun _ h => h⟩
  | append_singleton acts a ih =>
    rw [Machine.run_concat] at hn ⊢
    exact (ih (List.Nodup.sublist (sublist_step _ a) hn)).step hn

/-- **Jobs are conserved and ordered.** -/
theorem served_append_waiting (acts : List (Act α)) (hn : (machine.run acts).arrived.Nodup) :
    (machine.run acts).served ++ (machine.run acts).waiting =
      (machine.run acts).arrived.filter fun a => a ∉ (machine.run acts).dropped :=
  (conserved_run acts hn).order

/-- No job is served twice, nor served while it waits. -/
theorem nodup_served (acts : List (Act α)) (hn : (machine.run acts).arrived.Nodup) :
    ((machine.run acts).served ++ (machine.run acts).waiting).Nodup :=
  (conserved_run acts hn).nodup hn

end FlushQueue

end Orbiter
