import Orbiter.Main.Starts
import Orbiter.Stimuli.Clocks
import Orbiter.Stimuli.SplitDuration

/-!
# The calls of `playStimuli`

Every call of `playStimuli` is made for a stimulus: its start, or the remainder of the
stimulus started last.

* `caused`: the stimuli that the calls were made for.
* `caused_sublist`: **a stimulus causes a start and at most one remainder.**
* `length_caused`: every call is made for a stimulus.
* `playing_time_conserved`: **the playing time is conserved**, in at most two calls for
  each stimulus.
-/

namespace Orbiter.Main

open Cxx Toolbox Stimuli Globals

/-- The stimulus played last, and the stimuli that the calls of `playStimuli` so far
were made for. -/
structure Caused where
  last : Option Ref
  calls : List Ref

def Caused.step (c : Caused) : Event → Caused
  | .play front _ _ _ => ⟨some front, c.calls ++ [front]⟩
  | .remainder _ _ _ _ => { c with calls := c.calls ++ c.last.toList }
  | _ => c

def caused : Machine Caused Event where
  init := ⟨none, []⟩
  step := Caused.step

def played : Event → Option Ref
  | .play front _ _ _ => some front
  | _ => none

def isPlayEvent : Event → Bool
  | .play _ _ _ _ => true
  | .remainder _ _ _ _ => true
  | _ => false

def twice (rs : List Ref) : List Ref := rs.flatMap fun r => [r, r]

theorem twice_concat (rs : List Ref) (r : Ref) : twice (rs ++ [r]) = twice rs ++ [r, r] := by
  rw [twice, List.flatMap_append, List.flatMap_singleton]
  rfl

/-- Every remainder comes right behind the start it is left from. -/
def Follows (files : Files) (evs : List Event) : Prop :=
  ∀ before e after, evs = before ++ e :: after → FollowsStart files before e

variable {files : Files}

theorem Follows.of_concat {evs : List Event} {e : Event} (h : Follows files (evs ++ [e])) :
    Follows files evs ∧ FollowsStart files evs e := by
  refine ⟨?_, h evs e [] rfl⟩
  rintro before e' after rfl
  exact h before e' (after ++ [e]) (by rw [List.append_assoc, List.cons_append])

theorem caused_play (evs : List Event) (front : Ref) (audio : Option Sound)
    (length desired : Nat) : caused.run (evs ++ [.play front audio length desired]) =
      ⟨some front, (caused.run evs).calls ++ [front]⟩ := Machine.run_concat _ _ _

theorem caused_of_not_isPlay {e : Event} (h : isPlayEvent e = false) (evs : List Event) :
    caused.run (evs ++ [e]) = caused.run evs := by
  rw [Machine.run_concat]
  cases e <;> first | rfl | exact absurd h (by simp [isPlayEvent])

/-- A remainder is caused by the stimulus started right before it. -/
theorem caused_remainder {evs : List Event} {audio : Option Sound} {length desired : Nat}
    {fraction : ℚ} (h : FollowsStart files evs (.remainder audio length desired fraction)) :
    ∃ before front whole, evs = before ++ [.play front audio length whole] ∧
      (caused.run (evs ++ [.remainder audio length desired fraction])).calls =
        (caused.run before).calls ++ [front, front] := by
  obtain ⟨before, front, whole, rfl, -⟩ := h
  refine ⟨before, front, whole, rfl, ?_⟩
  rw [Machine.run_concat, caused_play]
  exact List.append_assoc _ [front] [front]

/-- **A stimulus causes a start and at most one remainder.** -/
theorem caused_sublist {evs : List Event} (h : Follows files evs) :
    (caused.run evs).calls.Sublist (twice (evs.filterMap played)) := by
  induction hn : evs.length using Nat.strong_induction_on generalizing evs with
  | _ n ih =>
    rcases List.eq_nil_or_concat evs with rfl | ⟨evs, e, rfl⟩
    · exact List.Sublist.refl _
    · rw [List.concat_eq_append] at h hn ⊢
      rw [List.length_append, List.length_singleton] at hn
      obtain ⟨hevs, he⟩ := h.of_concat
      have hsub := ih evs.length (by omega) hevs rfl
      rw [List.filterMap_append]
      cases e with
      | play front audio length desired =>
        rw [caused_play]
        show (_ ++ [front]).Sublist (twice (_ ++ [front]))
        rw [twice_concat]
        exact hsub.append (List.sublist_append_left [front] [front])
      | remainder audio length desired fraction =>
        obtain ⟨before, front, whole, rfl, hcalls⟩ := caused_remainder he
        rw [List.length_append, List.length_singleton] at hn
        have hbefore := ih before.length (by omega) hevs.of_concat.1 rfl
        rw [hcalls, List.filterMap_append]
        show (_ ++ [front, front]).Sublist (twice (_ ++ [front] ++ []))
        rw [List.append_nil, twice_concat]
        exact hbefore.append (List.Sublist.refl _)
      | _ =>
        rw [caused_of_not_isPlay rfl]
        show (caused.run evs).calls.Sublist (twice (evs.filterMap played ++ []))
        rwa [List.append_nil]

/-- Every start and every remainder is made for a stimulus. -/
theorem length_caused {evs : List Event} (h : Follows files evs) :
    (caused.run evs).calls.length = evs.countP isPlayEvent := by
  induction evs using List.reverseRecOn with
  | nil => rfl
  | append_singleton evs e ih =>
    obtain ⟨hevs, he⟩ := h.of_concat
    have hlength := ih hevs
    rw [List.countP_append]
    cases e with
    | play front audio length desired =>
      rw [caused_play, List.length_append, hlength]
      rfl
    | remainder audio length desired fraction =>
      obtain ⟨before, front, whole, rfl, hcalls⟩ := caused_remainder he
      rw [caused_play, List.length_append] at hlength
      rw [hcalls, List.length_append, ← hlength]
      rfl
    | _ =>
      rw [caused_of_not_isPlay rfl]
      simpa [isPlayEvent] using hlength

/-! ### Every run -/

theorem countP_eventsOf (cs : List Call) :
    (eventsOf cs).countP isPlayEvent = cs.countP Call.isPlay := by
  fun_induction eventsOf cs with
  | case8 c cs _ _ hplay _ _ _ _ ih =>
    have hc : c.isPlay = false := by
      cases c <;> first | rfl | exact (hplay _ _ _ _ rfl).elim
    rw [List.countP_cons_of_neg (by simp [hc]), ih]
  | case9 => rfl
  | case1 _ _ _ _ _ _ _ _ _ ih => simp [List.countP_cons, isPlayEvent, Call.isPlay, ih]
  | case2 _ _ _ ih => simp [isPlayEvent, Call.isPlay, ih]
  | case3 _ _ _ _ _ ih => simp [List.countP_cons, isPlayEvent, Call.isPlay, ih]
  | case4 _ _ ih => simp [isPlayEvent, Call.isPlay, ih]
  | case5 _ _ ih => simp [isPlayEvent, Call.isPlay, ih]
  | case6 _ ih => simp [isPlayEvent, Call.isPlay, ih]
  | case7 _ ih => simp [isPlayEvent, Call.isPlay, ih]

variable {env : Env}

/-- The calls of `playStimuli` in a run are the starts and the remainders. -/
theorem countP_events (acts : List Act) : (events env acts).countP isPlayEvent =
    ((machine env).run acts).stimuliLib.calls.countP Call.isPlay := by
  have hmethods : ∀ lib : StimuliLibrary,
      lib.calls.countP Call.isPlay = lib.entered.countP Call.isPlay := by
    intro lib
    rw [StimuliLibrary.entered, List.countP_filter]
    refine List.countP_congr fun c _ => ?_
    simpa using Call.isMethod_of_isPlay
  rw [hmethods]
  refine events_induction (P := fun g evs =>
    evs.countP isPlayEvent = g.stimuliLib.entered.countP Call.isPlay) rfl
    (fun _ _ _ h => h) (fun _ _ _ h => h) ?_ acts
  intro g evs answers hg h
  obtain ⟨cs, hstep⟩ := stimuliStep_timerFunc hg answers
  rw [List.countP_append, h, eventsBy_tick hstep, countP_eventsOf, entered_tick hstep,
    List.countP_append]

theorem follows_events (env : Env) (acts : List Act) : Follows env.toFiles (events env acts) :=
  (owing_run acts).2

theorem nodup_played (env : Env) (acts : List Act) :
    ((events env acts).filterMap played).Nodup := by
  have hsub : ∀ evs : List Event, (evs.filterMap played).Sublist (evs.filterMap started) := by
    intro evs
    induction evs with
    | nil => exact List.Sublist.refl _
    | cons e evs ih =>
      cases e with
      | play front audio length desired => exact ih.cons_cons front
      | loop hijacked => exact ih.cons hijacked
      | _ => exact ih
  have hleft : (leftIn env acts).Pairwise (· < ·) := pairwise_leftIn acts
  have hstarted := hleft.sublist (startedOnce acts).sublist
  exact (hstarted.sublist (hsub _)).imp fun h => Nat.ne_of_lt h

theorem count_caused_le (acts : List Act) (r : Ref) :
    (caused.run (events env acts)).calls.count r ≤ 2 := by
  have htwice : ∀ rs : List Ref, (twice rs).count r = 2 * rs.count r := by
    intro rs
    induction rs using List.reverseRecOn with
    | nil => rfl
    | append_singleton rs r' ih =>
      rw [twice_concat, List.count_append, List.count_append, ih]
      by_cases h : r' = r
      · rw [h]
        simp only [List.count_cons_self, List.count_nil]
        omega
      · simp [h]
  have hsub := (caused_sublist (follows_events env acts)).count_le r
  have honce := List.nodup_iff_count_le_one.mp (nodup_played env acts) r
  rw [htwice] at hsub
  omega

/-- **The playing time is conserved.**  In exact arithmetic a call of `playStimuli` for a
stimulus longer than its sound splits the desired duration into whole repetitions and a
remainder; and in every run each call is made for a stimulus, at most two of them for the
same one. -/
theorem playing_time_conserved (env : Env) :
    (env.double = Rounding.exact → ∀ (lib : StimuliLibrary) (clockDSP : Nat),
      0 < lib.audioFileLengthMs →
      lib.audioFileLengthMs < lib.uiDesiredDurationMs → lib.uiDesiredDurationMs < 2 ^ 31 →
      lib.SplitsDuration env.toFiles clockDSP) ∧
    ∀ acts : List Act,
      (caused.run (events env acts)).calls.length =
        ((machine env).run acts).stimuliLib.calls.countP Call.isPlay ∧
      ∀ r, (caused.run (events env acts)).calls.count r ≤ 2 := by
  refine ⟨fun hexact lib clockDSP h0 h _ =>
    StimuliLibrary.splitsDuration env.toFiles hexact h0 h clockDSP, ?_⟩
  intro acts
  rw [length_caused (follows_events env acts), countP_events]
  exact ⟨rfl, count_caused_le acts⟩

/-- The small world in exact arithmetic. -/
def exactSecond : Env := { oneSecond with double := .exact }

/-- Two and a half seconds of a sound of one second. -/
theorem playing_time_half :
    (StimuliLibrary.init.bLoadStimuli exactSecond.toFiles 1 1 2500).2.SplitsDuration
      exactSecond.toFiles 0 :=
  (playing_time_conserved exactSecond).1 rfl _ 0 (by decide) (by decide) (by decide)

end Orbiter.Main
