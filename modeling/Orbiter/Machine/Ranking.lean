import Orbiter.Machine.Run

/-!
# Work that gets done

A measure of the work a machine has left.  Quiet steps bring no new work, and some of them
make progress; the others may come in between in any number.

* `Ranking.rank_runFrom_le`: every step of a quiet run that makes progress takes away one.
* `Ranking.rank_eq_zero`: **a quiet run with enough progress does all the work.**
-/

namespace Orbiter.Machine

variable {σ α : Type*}

/-- A measure that no quiet step raises and that every step with progress lowers. -/
structure Ranking (m : Machine σ α) (law : σ → Prop) (quiet : σ → α → Prop)
    (progress : σ → α → Bool) where
  rank : σ → Nat
  keep : ∀ s a, law s → quiet s a → law (m.step s a)
  le : ∀ s a, law s → quiet s a → rank (m.step s a) ≤ rank s
  lt : ∀ s a, law s → quiet s a → progress s a = true → rank (m.step s a) ≤ rank s - 1

def countFrom (m : Machine σ α) (p : σ → α → Bool) (s : σ) (acts : List α) : Nat :=
  (m.stepsFrom s acts).countP fun x => p x.1 x.2

@[simp] theorem countFrom_nil (m : Machine σ α) (p : σ → α → Bool) (s : σ) :
    m.countFrom p s [] = 0 := rfl

@[simp] theorem countFrom_cons (m : Machine σ α) (p : σ → α → Bool) (s : σ) (a : α)
    (acts : List α) : m.countFrom p s (a :: acts) =
      m.countFrom p (m.step s a) acts + if p s a then 1 else 0 := by
  rw [countFrom, stepsFrom, List.countP_cons]
  rfl

theorem countFrom_append (m : Machine σ α) (p : σ → α → Bool) (s : σ) (acts acts' : List α) :
    m.countFrom p s (acts ++ acts') =
      m.countFrom p s acts + m.countFrom p (m.runFrom s acts) acts' := by
  rw [countFrom, stepsFrom_append, List.countP_append]
  rfl

theorem countFrom_countP (m : Machine σ α) (p : α → Bool) (s : σ) (acts : List α) :
    m.countFrom (fun _ a => p a) s acts = acts.countP p := by
  induction acts generalizing s with
  | nil => rfl
  | cons a acts ih => rw [countFrom_cons, ih, List.countP_cons]

namespace Ranking

variable {m : Machine σ α} {law : σ → Prop} {quiet : σ → α → Prop} {progress : σ → α → Bool}
  (r : Ranking m law quiet progress)

include r in
theorem keep_runFrom {s : σ} (h : law s) {acts : List α} (hq : m.AlwaysFrom quiet s acts) :
    law (m.runFrom s acts) := by
  induction acts generalizing s with
  | nil => exact h
  | cons a acts ih =>
    obtain ⟨ha, hrest⟩ := alwaysFrom_cons.mp hq
    exact ih (r.keep s a h ha) hrest

/-- Every step with progress takes away one. -/
theorem rank_runFrom_le {s : σ} (h : law s) {acts : List α} (hq : m.AlwaysFrom quiet s acts) :
    r.rank (m.runFrom s acts) ≤ r.rank s - m.countFrom progress s acts := by
  induction acts generalizing s with
  | nil => exact Nat.le_refl _
  | cons a acts ih =>
    obtain ⟨ha, hq⟩ := alwaysFrom_cons.mp hq
    have hrest := ih (r.keep s a h ha) hq
    have hle := r.le s a h ha
    rw [runFrom_cons, countFrom_cons]
    cases hp : progress s a with
    | false =>
      simp only [Bool.false_eq_true, if_false]
      omega
    | true =>
      have hlt := r.lt s a h ha hp
      simp only [if_true]
      omega

/-- **A quiet run with enough progress does all the work.** -/
theorem rank_eq_zero {s : σ} (h : law s) {acts : List α} (hq : m.AlwaysFrom quiet s acts)
    (hp : r.rank s ≤ m.countFrom progress s acts) : r.rank (m.runFrom s acts) = 0 := by
  have hle := r.rank_runFrom_le h hq
  omega

end Ranking

end Orbiter.Machine
