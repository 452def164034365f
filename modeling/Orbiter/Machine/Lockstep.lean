import Orbiter.Machine.Run
import Mathlib.Data.List.Forall2

/-!
# Two runs side by side

What an observer who sees only part of the actions can tell about the states: two runs
whose actions look alike end in states that look alike.

* `related_run`: **actions that are related one by one lead to related states.**
* `Blind.run_filter`: actions that a view does not see can be left out.
* `Blind.run_eq`: **runs with the same seen actions end with the same view.**
-/

namespace Orbiter.Machine

variable {σ α τ β ω : Type*}

/-- **Actions that are related one by one lead to related states.** -/
theorem related_run {m : Machine σ α} {n : Machine τ β} {R : σ → τ → Prop} {E : α → β → Prop}
    (init : R m.init n.init)
    (step : ∀ s t a b, m.Reachable s → n.Reachable t → R s t → E a b →
      R (m.step s a) (n.step t b))
    {acts : List α} {acts' : List β} (h : List.Forall₂ E acts acts') :
    R (m.run acts) (n.run acts') := by
  have key : ∀ s t, m.Reachable s → n.Reachable t → R s t →
      R (m.runFrom s acts) (n.runFrom t acts') := by
    induction h with
    | nil => exact fun _ _ _ _ hst => hst
    | cons hab _ ih =>
      intro s t hs ht hst
      exact ih _ _ (hs.step _) (ht.step _) (step s t _ _ hs ht hst hab)
  exact key _ _ (m.reachable_run []) (n.reachable_run []) init

/-- A view of the states that does not see some of the actions: such an action does not
change it, and the others change it in a way that depends on the view alone. -/
structure Blind (m : Machine σ α) (view : σ → ω) (seen : α → Bool) : Prop where
  skip : ∀ s a, seen a = false → view (m.step s a) = view s
  follow : ∀ s t a, seen a = true → view s = view t → view (m.step s a) = view (m.step t a)

namespace Blind

variable {m : Machine σ α} {view : σ → ω} {seen : α → Bool} (h : m.Blind view seen)

include h in
theorem runFrom_filter {s t : σ} (hst : view s = view t) (acts : List α) :
    view (m.runFrom s acts) = view (m.runFrom t (acts.filter seen)) := by
  induction acts generalizing s t with
  | nil => exact hst
  | cons a acts ih =>
    cases ha : seen a with
    | false =>
      rw [List.filter_cons_of_neg (by simp [ha])]
      exact ih ((h.skip s a ha).trans hst)
    | true =>
      rw [List.filter_cons_of_pos ha]
      exact ih (h.follow s t a ha hst)

include h in
/-- Actions that a view does not see can be left out. -/
theorem run_filter (acts : List α) : view (m.run acts) = view (m.run (acts.filter seen)) :=
  h.runFrom_filter rfl acts

include h in
/-- **Runs with the same seen actions end with the same view.** -/
theorem run_eq {acts acts' : List α} (hacts : acts.filter seen = acts'.filter seen) :
    view (m.run acts) = view (m.run acts') := by
  rw [h.run_filter acts, h.run_filter acts', hacts]

end Blind

end Orbiter.Machine
