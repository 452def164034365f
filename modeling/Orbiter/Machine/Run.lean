import Mathlib.Data.List.Basic
import Mathlib.Data.List.Induction

/-!
# Runs of a deterministic machine

A `Machine` has one initial state and a total step function; everything the
outside may choose is in the action.  A run is a list of actions, so a law about
every interleaving is a law about every list.

* `mem_steps_iff`: `steps acts` lists each action of the run with the state it
  was taken in.
* `Invariant.run`: what holds initially and is kept by every step from a
  reachable state holds after every run.
* `run_iff_steps`: **when a broken law is never repaired, it holds at the end of
  a run exactly when every step met the side condition.**
* `steps_congr`: laws that agree in every reachable state hold of the same runs.
* `Always`: a law about every step of a run.
* `always_iff_steps`: such a law and a side condition that agree as long as the side
  condition has held.
* `always_step_iff_steps`: the same for a law of the states behind the steps.
* `Simulation.run`: a machine whose steps are words of another follows it.
-/

namespace Orbiter

/-- A machine: where it starts and what an action does. -/
structure Machine (σ α : Type*) where
  init : σ
  step : σ → α → σ

namespace Machine

variable {σ α τ β : Type*} (m : Machine σ α)

def runFrom (s : σ) (acts : List α) : σ := acts.foldl m.step s

def run (acts : List α) : σ := m.runFrom m.init acts

def Reachable (s : σ) : Prop := ∃ acts, m.run acts = s

/-- The steps of a run: each action with the state it is taken in. -/
def stepsFrom : σ → List α → List (σ × α)
  | _, [] => []
  | s, a :: acts => (s, a) :: stepsFrom (m.step s a) acts

def steps (acts : List α) : List (σ × α) := m.stepsFrom m.init acts

@[simp] theorem run_nil : m.run [] = m.init := rfl
@[simp] theorem runFrom_nil (s : σ) : m.runFrom s [] = s := rfl
@[simp] theorem runFrom_cons (s : σ) (a : α) (acts : List α) :
    m.runFrom s (a :: acts) = m.runFrom (m.step s a) acts := rfl

theorem runFrom_append (s : σ) (acts acts' : List α) :
    m.runFrom s (acts ++ acts') = m.runFrom (m.runFrom s acts) acts' := List.foldl_append

theorem run_append (acts acts' : List α) :
    m.run (acts ++ acts') = m.runFrom (m.run acts) acts' := m.runFrom_append _ _ _

theorem run_concat (acts : List α) (a : α) : m.run (acts ++ [a]) = m.step (m.run acts) a := by
  rw [run_append]; rfl

theorem stepsFrom_append (s : σ) (acts acts' : List α) :
    m.stepsFrom s (acts ++ acts') = m.stepsFrom s acts ++ m.stepsFrom (m.runFrom s acts) acts' := by
  induction acts generalizing s with
  | nil => rfl
  | cons a acts ih => simp only [List.cons_append, stepsFrom, ih, runFrom_cons]

theorem steps_append (acts acts' : List α) :
    m.steps (acts ++ acts') = m.steps acts ++ m.stepsFrom (m.run acts) acts' :=
  m.stepsFrom_append _ _ _

theorem steps_concat (acts : List α) (a : α) :
    m.steps (acts ++ [a]) = m.steps acts ++ [(m.run acts, a)] := m.steps_append _ _

/-- A step of a run is an action and the state the actions before it lead to. -/
theorem mem_steps_iff {acts : List α} {s : σ} {a : α} :
    (s, a) ∈ m.steps acts ↔ ∃ pre post, acts = pre ++ a :: post ∧ m.run pre = s := by
  induction acts using List.reverseRecOn with
  | nil => simp [steps, stepsFrom]
  | append_singleton acts b ih =>
    rw [steps_concat, List.mem_append, List.mem_singleton, Prod.mk.injEq, ih]
    constructor
    · rintro (⟨pre, post, rfl, hs⟩ | ⟨rfl, rfl⟩)
      · exact ⟨pre, post ++ [b], by simp, hs⟩
      · exact ⟨acts, [], rfl, rfl⟩
    · rintro ⟨pre, post, he, hs⟩
      rcases List.eq_nil_or_concat post with rfl | ⟨post', c, rfl⟩
      · obtain ⟨rfl, hb⟩ := List.append_inj' he rfl
        exact Or.inr ⟨hs.symm, (List.singleton_inj.mp hb).symm⟩
      · rw [List.concat_eq_append, ← List.cons_append, ← List.append_assoc] at he
        exact Or.inl ⟨pre, post', (List.append_inj' he rfl).1, hs⟩

theorem reachable_run (acts : List α) : m.Reachable (m.run acts) := ⟨acts, rfl⟩

theorem Reachable.step {m : Machine σ α} {s : σ} (h : m.Reachable s) (a : α) :
    m.Reachable (m.step s a) := by
  obtain ⟨acts, rfl⟩ := h
  exact ⟨acts ++ [a], m.run_concat acts a⟩

theorem reachable_of_mem_steps {acts : List α} {s : σ} {a : α} (h : (s, a) ∈ m.steps acts) :
    m.Reachable s := by
  obtain ⟨pre, _, _, hs⟩ := m.mem_steps_iff.mp h
  exact ⟨pre, hs⟩

theorem mem_steps_concat (acts : List α) (a : α) : (m.run acts, a) ∈ m.steps (acts ++ [a]) :=
  m.mem_steps_iff.mpr ⟨acts, [], rfl, rfl⟩

/-- Two laws that agree in every reachable state hold of the same runs. -/
theorem steps_congr {P G : σ → α → Prop} (law : ∀ s a, m.Reachable s → (P s a ↔ G s a))
    (acts : List α) : (∀ x ∈ m.steps acts, P x.1 x.2) ↔ ∀ x ∈ m.steps acts, G x.1 x.2 :=
  forall₂_congr fun x hx => law x.1 x.2 (m.reachable_of_mem_steps hx)

/-! ### Laws about every run -/

/-- `P` holds initially and is kept by every step from a reachable state. -/
structure Invariant (P : σ → Prop) : Prop where
  init : P m.init
  step : ∀ s a, m.Reachable s → P s → P (m.step s a)

variable {m}

theorem Invariant.run {P : σ → Prop} (h : m.Invariant P) (acts : List α) : P (m.run acts) := by
  induction acts using List.reverseRecOn with
  | nil => exact h.init
  | append_singleton acts a ih =>
    rw [run_concat]
    exact h.step _ a (m.reachable_run acts) ih

theorem Invariant.of_reachable {P : σ → Prop} (h : m.Invariant P) {s : σ} (hs : m.Reachable s) :
    P s := by
  obtain ⟨acts, rfl⟩ := hs
  exact h.run acts

/-- **When a broken law is never repaired, it holds at the end of a run exactly
when every step met the side condition.** -/
theorem run_iff_steps {P : σ → Prop} {G : σ → α → Prop} (init : P m.init)
    (step : ∀ s a, m.Reachable s → (P (m.step s a) ↔ P s ∧ G s a)) (acts : List α) :
    P (m.run acts) ↔ ∀ x ∈ m.steps acts, G x.1 x.2 := by
  induction acts using List.reverseRecOn with
  | nil => simp [init, steps, stepsFrom]
  | append_singleton acts a ih =>
    rw [run_concat, step _ a (m.reachable_run acts), ih, steps_concat]
    simp only [List.mem_append, List.mem_singleton, or_imp, forall_and, forall_eq]

/-! ### Laws about every step -/

variable (m)

/-- Every step from `s` on meets `P`. -/
def AlwaysFrom (P : σ → α → Prop) (s : σ) (acts : List α) : Prop :=
  ∀ x ∈ m.stepsFrom s acts, P x.1 x.2

def Always (P : σ → α → Prop) (acts : List α) : Prop := m.AlwaysFrom P m.init acts

instance (P : σ → α → Prop) [∀ s a, Decidable (P s a)] (acts : List α) :
    Decidable (m.Always P acts) := by
  unfold Always AlwaysFrom; infer_instance

variable {m} {P : σ → α → Prop}

@[simp] theorem alwaysFrom_nil (s : σ) : m.AlwaysFrom P s [] := by simp [AlwaysFrom, stepsFrom]

@[simp] theorem alwaysFrom_cons {s : σ} {a : α} {acts : List α} :
    m.AlwaysFrom P s (a :: acts) ↔ P s a ∧ m.AlwaysFrom P (m.step s a) acts := by
  simp only [AlwaysFrom, stepsFrom, List.mem_cons, forall_eq_or_imp]

theorem alwaysFrom_of_forall {acts : List α} (h : ∀ a ∈ acts, ∀ s, P s a) (s : σ) :
    m.AlwaysFrom P s acts := by
  induction acts generalizing s with
  | nil => exact alwaysFrom_nil s
  | cons a acts ih =>
    refine alwaysFrom_cons.mpr ⟨h a List.mem_cons_self s, ih ?_ _⟩
    exact fun a' ha' => h a' (List.mem_cons_of_mem _ ha')

theorem always_append {acts acts' : List α} :
    m.Always P (acts ++ acts') ↔ m.Always P acts ∧ m.AlwaysFrom P (m.run acts) acts' := by
  simp only [Always, AlwaysFrom, stepsFrom_append, List.mem_append, or_imp, forall_and]
  rfl

/-- A law about every step holds of the beginning of a run. -/
theorem Always.of_prefix {acts acts' : List α} (h : m.Always P acts') (hp : acts <+: acts') :
    m.Always P acts := by
  obtain ⟨rest, rfl⟩ := hp
  exact (always_append.mp h).1

/-- **A law that agrees with a side condition as long as the side condition has held
holds of every step exactly when the side condition does.** -/
theorem always_iff_steps {G : σ → α → Prop} {I : σ → Prop} (init : I m.init)
    (law : ∀ s a, m.Reachable s → I s → (P s a ↔ G s a))
    (keep : ∀ s a, m.Reachable s → I s → G s a → I (m.step s a)) (acts : List α) :
    m.Always P acts ↔ ∀ x ∈ m.steps acts, G x.1 x.2 := by
  have hkeep : ∀ acts, (∀ x ∈ m.steps acts, G x.1 x.2) → I (m.run acts) := by
    intro acts
    induction acts using List.reverseRecOn with
    | nil => exact fun _ => init
    | append_singleton acts a ih =>
      intro h
      rw [steps_concat] at h
      rw [run_concat]
      exact keep _ a (m.reachable_run acts) (ih fun x hx => h x (List.mem_append_left _ hx))
        (h (m.run acts, a) (List.mem_append_right _ List.mem_cons_self))
  induction acts using List.reverseRecOn with
  | nil => simp [Always, AlwaysFrom, steps, stepsFrom]
  | append_singleton acts a ih =>
    have hsteps : (∀ x ∈ m.steps (acts ++ [a]), G x.1 x.2) ↔
        (∀ x ∈ m.steps acts, G x.1 x.2) ∧ G (m.run acts) a := by
      rw [steps_concat]
      simp only [List.mem_append, List.mem_singleton, or_imp, forall_and, forall_eq]
    have hlast : m.AlwaysFrom P (m.run acts) [a] ↔ P (m.run acts) a := by
      rw [alwaysFrom_cons]
      exact and_iff_left (alwaysFrom_nil _)
    refine (always_append.trans (and_congr ih hlast)).trans (Iff.trans ?_ hsteps.symm)
    exact and_congr_right fun h => law _ a (m.reachable_run acts) (hkeep acts h)

/-- **A law of states holds behind every step exactly when every step from a state that
meets it meets the side condition.** -/
theorem always_step_iff_steps {I : σ → Prop} {G : σ → α → Prop} (init : I m.init)
    (step : ∀ s a, m.Reachable s → I s → (I (m.step s a) ↔ G s a)) (acts : List α) :
    m.Always (fun s a => I (m.step s a)) acts ↔ ∀ x ∈ m.steps acts, G x.1 x.2 :=
  always_iff_steps init step (fun s a hs hi => (step s a hs hi).mpr) acts

/-! ### Simulation -/

/-- Every step of `m` is a word of actions of `n`, up to a relation of states. -/
structure Simulation (m : Machine σ α) (n : Machine τ β) where
  rel : σ → τ → Prop
  word : σ → α → List β
  init : rel m.init n.init
  step : ∀ s t a, m.Reachable s → rel s t → rel (m.step s a) (n.runFrom t (word s a))

namespace Simulation

variable {n : Machine τ β} (sim : Simulation m n)

def words (acts : List α) : List β := (m.steps acts).flatMap fun x => sim.word x.1 x.2

theorem words_concat (acts : List α) (a : α) :
    sim.words (acts ++ [a]) = sim.words acts ++ sim.word (m.run acts) a := by
  rw [words, steps_concat, List.flatMap_append, List.flatMap_singleton]
  rfl

theorem run (acts : List α) : sim.rel (m.run acts) (n.run (sim.words acts)) := by
  induction acts using List.reverseRecOn with
  | nil => exact sim.init
  | append_singleton acts a ih =>
    rw [run_concat, words_concat, run_append]
    exact sim.step _ _ a (m.reachable_run acts) ih

end Simulation

end Machine

end Orbiter
