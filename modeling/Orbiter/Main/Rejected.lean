import Orbiter.Main.Stimuli
import Orbiter.Main.Movement

/-!
# Rejected messages

A rejected string decodes to the all-zero `HostData`, whose flags say "instant": it
clears both queues, takes their place and is run like a command.

* `view_rejected`: what a tick with a rejected message leaves behind.
* `noEffect_iff`: **the states in which a rejected message has no effect**.
-/

namespace Orbiter.Main

open Cxx Toolbox Stimuli Globals

variable {env : Env}

/-- What a message may change: the queues by the values of their `HostData`, the skip
flag, the movement-bound stimulus and the two numbers of the remainder. -/
structure View where
  movementQueue : List HostData
  stimuliQueue : List HostData
  movementSkip : Bool
  hostDataOfHijackedProtocol : Option HostData
  dFractionOfAudioFileLeftToPlay : ℚ
  uiDesiredDurationMs : Nat
  deriving DecidableEq

def Globals.view (g : Globals) : View where
  movementQueue := g.movementQueue.map g.heap.deref
  stimuliQueue := g.stimuliLib.stimuliQueue.map g.heap.deref
  movementSkip := g.movementSkip
  hostDataOfHijackedProtocol := g.stimuliLib.hostDataOfHijackedProtocol.map g.heap.deref
  dFractionOfAudioFileLeftToPlay := g.stimuliLib.dFractionOfAudioFileLeftToPlay
  uiDesiredDurationMs := g.stimuliLib.uiDesiredDurationMs

/-- The tick with the message leaves what the tick without it leaves. -/
def NoEffect (env : Env) (g : Globals) (msg : Str) (answers : Answers) : Prop :=
  (step env (step env g (.tcpPush msg)) (.tick answers)).view = (step env g (.tick answers)).view

instance (env : Env) (g : Globals) (msg : Str) (answers : Answers) :
    Decidable (NoEffect env g msg answers) := by unfold NoEffect; infer_instance

/-- The stimulus would be gone after its tick without a trace: it asks for no time, or
for a whole number of repetitions of its sound. -/
def Traceless (files : Files) (d : HostData) : Prop :=
  d.stimulusDuration = 0 ∨
    (d.stimulusDuration ≠ iPlayStimulusAsLongAsMovementsPending ∧ d.toBeTriggerd = true ∧
      ∃ path, pathToAudio d.stimulusNr = some path ∧ 0 < files.length path ∧
        files.length path < d.stimulusDuration ∧ files.length path ∣ d.stimulusDuration)

/-- The next tick empties the stimuli queue and leaves nothing, message or not.  A fraction
that is left over may be that of less than a millisecond: it is kept when it is too small
to be played, and used up otherwise. -/
def StimuliSpent (files : Files) (heap : Store HostData) (p : Playback) : Prop :=
  match p.hijacked, p.queue with
  | some _, queue => queue.map heap.deref = [HostData.zero]
  | none, [] => p.desired = 0 ∧ (p.fraction = 0 ∨ 0.0001 < p.fraction)
  | none, [front] => Traceless files (heap.deref front)
  | none, _ => False

/-- The movement queue is empty behind an instant movement, and the stimuli are
spent. -/
structure Harmless (env : Env) (g : Globals) : Prop where
  skip : g.movementSkip = true
  stimuli : StimuliSpent env.toFiles g.heap g.stimuliLib.playback

def outcome (r : Store HostData × Playback) : List HostData × Option HostData × ℚ × Nat :=
  (r.2.queue.map r.1.deref, r.2.hijacked.map r.1.deref, r.2.fraction, r.2.desired)

/-! ### The all-zero stimulus -/

theorem deref_alloc_zero (heap : Store HostData) (r : Ref) :
    (heap.alloc HostData.zero).deref r = heap.deref r := by
  rcases lt_trichotomy r heap.next with hlt | rfl | hgt
  · exact Store.deref_alloc_of_lt hlt _
  · rw [Store.deref_next, Store.deref_of_ge le_rfl]
    rfl
  · rw [Store.deref_of_ge (by rw [Store.next_alloc]; exact hgt), Store.deref_of_ge hgt.le]

variable {files : Files} {heap heap' : Store HostData} {p : Playback}

theorem deref_started_eq_zero_iff (hk : Known heap) (hs : Started heap heap') (r : Ref) :
    heap'.deref r = HostData.zero ↔ heap.deref r = HostData.zero := by
  rcases hs.deref r with hr | hr
  · rw [hr]
  · constructor
    · intro hz
      apply (hk r).resolve_right
      intro hn
      have hnr : (heap.deref r).stimulusNr = 0 := congrArg HostData.stimulusNr (hr.symm.trans hz)
      rw [hnr] at hn
      exact absurd hn (by decide)
    · intro hz
      rw [hr, hz]
      rfl

theorem map_deref_eq_zero_iff (hk : Known heap) (hs : Started heap heap') (queue : List Ref) :
    queue.map heap'.deref = [HostData.zero] ↔ queue.map heap.deref = [HostData.zero] := by
  rw [List.map_eq_singleton_iff, List.map_eq_singleton_iff]
  exact exists_congr fun r => and_congr_right fun _ => deref_started_eq_zero_iff hk hs r

/-- The tick of an all-zero stimulus that has cleared the queue, when nothing is
movement-bound. -/
theorem outcome_zero (files : Files) (hj : p.hijacked = none) (moving finished : Bool) :
    outcome ({ p with queue := [heap.next] }.tick files (heap.alloc HostData.zero) moving
      finished) =
      ([], none, 0, 0) := by
  have hz : (heap.alloc HostData.zero).deref heap.next = HostData.zero := Store.deref_next _ _
  have ht := Playback.tick_front (p := { p with queue := [heap.next] }) files
    (heap.alloc HostData.zero) hj (show _ = heap.next :: [] from rfl) (by rw [hz]; decide) moving
    finished
  rw [ht, hz]
  show ([], p.hijacked.map _, (0 : ℚ), 0) = _
  rw [hj]
  rfl

/-- Starting the movement-bound stimulus does not depend on an all-zero object behind
it. -/
theorem silence_alloc_zero {r : Ref} (hr : r < heap.next) (hj : p.hijacked = some r) :
    (p.silence (heap.alloc HostData.zero)).deref = (p.silence heap).deref := by
  funext r'
  unfold Playback.silence
  rw [hj]
  simp only [deref_alloc_zero]
  split
  · by_cases he : r = r'
    · subst he
      have hr' : r < (heap.alloc HostData.zero).next := by
        rw [Store.next_alloc]
        exact Nat.lt_succ_of_lt hr
      rw [Store.deref_update_of_lt hr', Store.deref_update_of_lt hr, deref_alloc_zero]
    · rw [Store.deref_update_of_ne he, Store.deref_update_of_ne he, deref_alloc_zero]
  · exact deref_alloc_zero heap r'

/-- The same when there is a movement-bound stimulus: the all-zero one waits. -/
theorem outcome_zero_hijacked (files : Files) {r : Ref} (hj : p.hijacked = some r)
    (hp : p.Playable heap) (hk : Known heap) (moving finished : Bool) :
    outcome ({ p with queue := [heap.next] }.tick files (heap.alloc HostData.zero) moving
      finished) =
      outcome (p.tick files heap moving finished) ↔ p.queue.map heap.deref = [HostData.zero] := by
  obtain ⟨hd, hs⟩ := hp r hj
  have hlt : r < heap.next := by
    by_contra hge
    rw [Store.deref_of_ge (Nat.le_of_not_lt hge)] at hd
    exact absurd hd (by decide)
  have hr := deref_alloc_zero heap r
  have hnew : heap.deref heap.next = HostData.zero := Store.deref_of_ge le_rfl
  rw [Playback.tick_hijacked files (heap.alloc HostData.zero) { p with queue := [heap.next] } hj
    (by rw [hr]; exact hd) (by rw [hr]; exact hs), hr, p.tick_hijacked files heap hj hd hs]
  have hwaits (heap' : Store HostData) (hs : Started heap heap') :
      [heap'.deref heap.next] = p.queue.map heap'.deref ↔
        p.queue.map heap.deref = [HostData.zero] := by
    rw [(deref_started_eq_zero_iff hk hs _).mpr hnew, eq_comm, map_deref_eq_zero_iff hk hs]
  cases moving with
  | true =>
    show ([(p.silence (heap.alloc HostData.zero)).deref heap.next],
      p.hijacked.map (p.silence (heap.alloc HostData.zero)).deref, (0 : ℚ),
      (heap.deref r).stimulusDuration) = (p.queue.map (p.silence heap).deref,
        p.hijacked.map (p.silence heap).deref, 0, (heap.deref r).stimulusDuration) ↔ _
    rw [silence_alloc_zero hlt hj, Prod.mk.injEq, and_iff_left rfl]
    exact hwaits _ (Playback.started_silence heap p)
  | false =>
    have hsame : (heap.alloc HostData.zero).deref = heap.deref := funext (deref_alloc_zero heap)
    cases finished with
    | true =>
      show ([(heap.alloc HostData.zero).deref heap.next], none, (0 : ℚ),
        (heap.deref r).stimulusDuration) =
          (p.queue.map heap.deref, none, 0, (heap.deref r).stimulusDuration) ↔ _
      rw [hsame, Prod.mk.injEq, and_iff_left rfl]
      exact hwaits heap (Started.refl heap)
    | false =>
      show ([(heap.alloc HostData.zero).deref heap.next],
        p.hijacked.map (heap.alloc HostData.zero).deref, (0 : ℚ),
        (heap.deref r).stimulusDuration) = (p.queue.map heap.deref, p.hijacked.map heap.deref, 0,
          (heap.deref r).stimulusDuration) ↔ _
      rw [hsame, Prod.mk.injEq, and_iff_left rfl]
      exact hwaits heap (Started.refl heap)

/-! ### The tick without a message -/

/-- A call that owes nothing leaves nothing exactly when it has nothing to do, or
repeats the sound a whole number of times. -/
theorem play_eq_zero_iff (files : Files) (h : p.fraction = 0) (hd : p.desired < 2 ^ 32) :
    ((p.play files).fraction = 0 ∧ (p.play files).desired = 0) ↔
      p.desired = 0 ∨ (0 < p.length ∧ p.length < p.desired ∧ p.length ∣ p.desired) := by
  rw [Playback.play]
  by_cases h0 : p.length = 0
  · rw [if_pos h0]
    simp [h, h0]
  · rw [if_neg h0]
    by_cases hlt : p.length < p.desired
    · rw [if_pos hlt]
      have hne : p.desired ≠ 0 := by omega
      have hpos := Nat.pos_of_ne_zero h0
      simp only [hne, hpos, hlt, true_and, false_or]
      rw [← files.double.fraction_eq_zero_iff (by omega) hpos]
      exact and_iff_left_of_imp files.double.rest_of_fraction
    · rw [if_neg hlt]
      have hor : (p.desired = 0 ∨ 0 < p.length ∧ p.length < p.desired ∧ p.length ∣ p.desired) ↔
          p.desired = 0 := or_iff_left fun hx => hlt hx.2.1
      rw [hor]
      by_cases hgt : p.desired < p.length
      · rw [if_pos hgt]
        simp
      · rw [if_neg hgt]
        simp [h]

/-- With an empty queue, an owed remainder is used up, and its duration stays. -/
theorem outcome_nil_iff (files : Files) (heap : Store HostData) (hj : p.hijacked = none)
    (hq : p.queue = []) (ho : p.Owes) (moving finished : Bool) :
    ([], none, 0, 0) = outcome (p.tick files heap moving finished) ↔
      p.desired = 0 ∧ (p.fraction = 0 ∨ 0.0001 < p.fraction) := by
  rw [p.tick_nil files heap hj hq]
  by_cases hf : 0.0001 < p.fraction
  · have hne : p.fraction ≠ 0 := by
      rintro hz
      rw [hz] at hf
      exact absurd hf (by norm_num)
    rw [if_pos hf, (ho.play_eq files hne).2]
    show ([], none, (0 : ℚ), 0) =
      (p.queue.map heap.deref, p.hijacked.map heap.deref, 0, p.desired) ↔ _
    rw [hq, hj]
    simp [hf, eq_comm]
  · rw [if_neg hf]
    show ([], none, (0 : ℚ), 0) =
      (p.queue.map heap.deref, p.hijacked.map heap.deref, p.fraction, p.desired) ↔ _
    rw [hq, hj]
    simp [hf, eq_comm, and_comm]

theorem outcome_front_iff (files : Files) {front : Ref} (hj : p.hijacked = none)
    (hq : p.queue = [front]) (hk : Known heap)
    (hword : (heap.deref front).stimulusDuration < 2 ^ 32) (moving finished : Bool) :
    ([], none, 0, 0) = outcome (p.tick files heap moving finished) ↔
      Traceless files (heap.deref front) := by
  by_cases hd : (heap.deref front).stimulusDuration = iPlayStimulusAsLongAsMovementsPending
  · -- It is taken as the movement-bound stimulus, and its duration stays.
    have hne : (heap.deref front).stimulusDuration ≠ 0 := by rw [hd]; decide
    rw [p.tick_take files heap hj hq hd]
    refine iff_of_false ?_ (by simp [Traceless, hd, iPlayStimulusAsLongAsMovementsPending])
    intro h
    have hdesired : 0 = (heap.deref front).stimulusDuration := by
      have h4 := congrArg (fun x => x.2.2.2) h
      unfold Playback.continueBound outcome at h4
      cases moving <;> cases finished <;> exact h4
    exact hne hdesired.symm
  · rw [p.tick_front files heap hj hq hd]
    cases ht : (heap.deref front).toBeTriggerd with
    | false =>
      rw [Playback.trigger_of_not_toBeTriggerd files _ ht]
      show ([], none, (0 : ℚ), 0) = ([], p.hijacked.map heap.deref, 0,
        (heap.deref front).stimulusDuration) ↔ _
      rw [hj]
      simp [Traceless, ht, eq_comm]
    | true =>
      obtain ⟨path, hpath⟩ := hk.exists_path ht
      rw [Playback.trigger_of_toBeTriggerd files _ ht (by rw [hpath]; rfl)]
      generalize hq' : { p.load files (heap.deref front) with queue := [] }.load files
        (heap.deref front) = q
      have hlength : q.length = files.length path := by rw [← hq', Playback.load, hpath]; rfl
      have hdesired : q.desired = (heap.deref front).stimulusDuration := by rw [← hq']; rfl
      have hqueue : (q.play files).queue = [] ∧ (q.play files).hijacked = none := by
        rw [Playback.play_queue, Playback.play_hijacked, ← hq']
        exact ⟨rfl, hj⟩
      show ([], none, (0 : ℚ), 0) = ((q.play files).queue.map heap.deref,
        (q.play files).hijacked.map heap.deref, (q.play files).fraction,
        (q.play files).desired) ↔ _
      rw [hqueue.1, hqueue.2]
      have hzero := play_eq_zero_iff (p := q) files (by rw [← hq']; rfl) (by rwa [hdesired])
      rw [hlength, hdesired] at hzero
      simp only [List.map_nil, Option.map_none, Prod.mk.injEq, true_and, Traceless, ht, hpath,
        Option.some.injEq, exists_eq_left']
      rw [eq_comm, eq_comm (a := 0) (b := (q.play files).desired), hzero]
      simp [hd]

/-- Of two stimuli that wait, the second one still waits. -/
theorem outcome_cons_cons (files : Files) (heap : Store HostData) {front next : Ref}
    {rest : List Ref} (hj : p.hijacked = none) (hq : p.queue = front :: next :: rest)
    (moving finished : Bool) :
    ([], none, 0, 0) ≠ outcome (p.tick files heap moving finished) := by
  have hqueue : (p.tick files heap moving finished).2.queue = next :: rest := by
    by_cases hd : (heap.deref front).stimulusDuration = iPlayStimulusAsLongAsMovementsPending
    · rw [p.tick_take files heap hj hq hd]
      rw [Playback.continueBound]
      cases moving <;> cases finished <;> rfl
    · rw [p.tick_front files heap hj hq hd]
      exact Playback.trigger_queue files _ _
  intro h
  have hnil := congrArg Prod.fst h
  rw [outcome, hqueue] at hnil
  exact absurd hnil (by simp)

/-- **When an all-zero stimulus leaves what no stimulus leaves.** -/
theorem outcome_zero_iff (files : Files) (hk : Known heap)
    (hword : ∀ r, (heap.deref r).stimulusDuration < 2 ^ 32) (ho : p.Owes) (hp : p.Playable heap)
    (moving finished : Bool) :
    outcome ({ p with queue := [heap.next] }.tick files (heap.alloc HostData.zero) moving
      finished) =
      outcome (p.tick files heap moving finished) ↔ StimuliSpent files heap p := by
  rcases Option.eq_none_or_eq_some p.hijacked with hj | ⟨r, hj⟩
  · rw [outcome_zero files hj]
    rcases hq : p.queue with _ | ⟨front, _ | ⟨next, rest⟩⟩
    · rw [outcome_nil_iff files heap hj hq ho]
      simp only [StimuliSpent, hj, hq]
    · rw [outcome_front_iff files hj hq hk (hword front)]
      simp only [StimuliSpent, hj, hq]
    · refine iff_of_false (outcome_cons_cons files heap hj hq moving finished) ?_
      simp only [StimuliSpent, hj, hq, not_false_eq_true]
  · rw [outcome_zero_hijacked files hj hp hk]
    simp only [StimuliSpent, hj]

/-! ### The tick of the program -/

theorem view_timerFunc (env : Env) (g : Globals) (answers : Answers) :
    let g' := g.timerFunc env answers
    let o := outcome ((g.afterMessage env).stimuliLib.playback.tick env.toFiles
      (g.afterMessage env).heap (StimuliLibrary.moving g'.movementQueue answers)
      answers.finishedReached)
    g'.view = ⟨g'.movementQueue.map g'.heap.deref, o.1, (g.afterMessage env).movementSkip, o.2.1,
      o.2.2.1, o.2.2.2⟩ := by
  intro g' o
  have ho : o = outcome (g'.heap, g'.stimuliLib.playback) :=
    congrArg outcome (playback_timerFunc env g answers).symm
  have hskip : g'.movementSkip = (g.afterMessage env).movementSkip :=
    timerFunc_movementSkip g answers
  rw [ho, ← hskip]
  rfl

/-- A tick that handles an instant movement leaves no movement behind. -/
theorem movementQueue_of_instant {g : Globals} (h : MovementInvariant g) (hi : g.Instant env)
    (answers : Answers) : (g.timerFunc env answers).movementQueue = [] := by
  rcases h.tickMoves env answers with ⟨hn, -⟩ | ⟨-, -, hq⟩ | ⟨hn, -⟩
  · exact absurd hi hn
  · exact hq
  · exact absurd hi hn

theorem message_tcpPush (g : Globals) (msg : Str) :
    (step env g (.tcpPush msg)).message = msg := drain_concat _ _ _

/-- No movement waits, the skip flag is set, and the stimuli step had this outcome. -/
def View.idle (o : List HostData × Option HostData × ℚ × Nat) : View :=
  ⟨[], o.1, true, o.2.1, o.2.2.1, o.2.2.2⟩

theorem View.idle_inj {o o' : List HostData × Option HostData × ℚ × Nat} :
    View.idle o = View.idle o' ↔ o = o' := by
  simp [View.idle, Prod.ext_iff]

def rejectedOutcome (env : Env) (g : Globals) (answers : Answers) :
    List HostData × Option HostData × ℚ × Nat :=
  outcome ({ g.stimuliLib.playback with queue := [g.heap.next] }.tick env.toFiles
    (g.heap.alloc HostData.zero) (StimuliLibrary.moving [] answers) answers.finishedReached)

/-- The stimuli step of a tick in which no message came and no movement waits. -/
def silentOutcome (env : Env) (g : Globals) (answers : Answers) :
    List HostData × Option HostData × ℚ × Nat :=
  outcome (g.stimuliLib.playback.tick env.toFiles g.heap (StimuliLibrary.moving [] answers)
    answers.finishedReached)

/-- **What a tick with a rejected message leaves behind.** -/
theorem view_rejected {g : Globals} (h : MovementInvariant g) (hm : g.message ≠ [])
    (hz : decodeHostData env.pow g.message 0 = HostData.zero) (answers : Answers) :
    (g.timerFunc env answers).view = .idle (rejectedOutcome env g answers) := by
  have hi : g.Instant env := ⟨hm, congrArg HostData.movQueued hz⟩
  have hnil := movementQueue_of_instant h hi answers
  have hafter := afterMessage_of_ne_nil env hm
  have hheap := hafter.heap
  have hlib := hafter.stimuliLib
  have hskip := hafter.movementSkip
  rw [hz] at hheap hlib hskip
  have hview := view_timerFunc env g answers
  simp only [hnil, hheap, hlib, hskip] at hview
  exact hview

theorem view_silent {g : Globals} (h : MovementInvariant g) (hm : g.message = [])
    (hs : g.movementSkip = true) (answers : Answers) :
    (g.timerFunc env answers).view = .idle (silentOutcome env g answers) := by
  have hafter := afterMessage_of_nil env hm
  have hnil : (g.timerFunc env answers).movementQueue = [] := by
    rw [timerFunc_movementQueue, hafter, processMovement, if_pos (h.skip hs)]
    exact h.skip hs
  have hview := view_timerFunc env g answers
  simp only [hnil, hafter, hs] at hview
  exact hview

/-- **The states in which a rejected message has no effect**: the skip flag is set
already, and the stimuli are spent by a tick without it. -/
theorem noEffect_iff {g : Globals} (h : (machine env).Reachable g) (hm : g.message = [])
    {msg : Str} (hne : msg ≠ []) (hz : decodeHostData env.pow msg 0 = HostData.zero)
    (answers : Answers) : NoEffect env g msg answers ↔ Harmless env g := by
  have hmove := movementInvariant.of_reachable h
  have hstim := stimuliInvariant.of_reachable h
  have hspent : rejectedOutcome env g answers = silentOutcome env g answers ↔
      StimuliSpent env.toFiles g.heap g.stimuliLib.playback :=
    outcome_zero_iff env.toFiles (known_heap h) (stimulusDuration_lt h) hstim.owes
      hstim.playable _ _
  have hmsg : (step env g (.tcpPush msg)).message = msg := message_tcpPush g msg
  have hview : ((step env g (.tcpPush msg)).timerFunc env answers).view =
      .idle (rejectedOutcome env g answers) :=
    view_rejected (g := step env g (.tcpPush msg)) ⟨hmove.skip, hmove.lt, hmove.queued⟩
      (by rwa [hmsg]) (by rwa [hmsg]) answers
  show ((step env g (.tcpPush msg)).timerFunc env answers).view = (g.timerFunc env answers).view ↔ _
  rw [hview]
  cases hs : g.movementSkip with
  | false =>
    apply iff_of_false
    · intro hv
      have hskip : true = (g.timerFunc env answers).movementSkip := congrArg View.movementSkip hv
      rw [timerFunc_movementSkip, afterMessage_of_nil env hm,
        show Globals.movementSkip _ = false from hs] at hskip
      exact absurd hskip (by simp)
    · intro hh
      have hskip := hh.skip
      rw [hs] at hskip
      exact absurd hskip (by simp)
  | true =>
    rw [view_silent hmove hm hs answers, View.idle_inj, hspent]
    exact ⟨fun h' => ⟨hs, h'⟩, fun h' => h'.stimuli⟩

/-- A string that is no record clears a queued movement. -/
theorem rejected_clears_queue :
    let g := (machine oneSecond).run [.tcpPush "001010.00090.000010025009010".toList, .tick busy,
      .tcpPush "002010.00045.000010025009010".toList, .tick busy]
    g.message = [] ∧ decodeHostData oneSecond.pow "hello".toList 0 = HostData.zero ∧
      ¬ NoEffect oneSecond g "hello".toList busy := by
  decide +kernel

/-- Behind a rejected message a second one changes nothing. -/
theorem noEffect_second :
    NoEffect oneSecond ((machine oneSecond).run [.tcpPush "hello".toList, .tick busy])
      "hello".toList busy := by
  have hj : ((machine oneSecond).run [.tcpPush "hello".toList,
      .tick busy]).stimuliLib.playback.hijacked = none := by decide +kernel
  have hq : ((machine oneSecond).run [.tcpPush "hello".toList,
      .tick busy]).stimuliLib.playback.queue = [] := by decide +kernel
  refine (noEffect_iff (Machine.reachable_run _ _) (by decide +kernel) (by decide)
    (by decide +kernel) busy).mpr ⟨by decide +kernel, ?_⟩
  simp only [StimuliSpent, hj, hq]
  decide +kernel

/-- 10001 ms of a sound of ten seconds leave no time but a fraction, which only the rejected
message clears. -/
example :
    let env : Env := { oneSecond with length := fun _ => 10000 }
    let g := (machine env).run [.tcpPush "000000.00000.001010100019011".toList, .tick busy]
    g.movementSkip = true ∧ g.stimuliLib.stimuliQueue = [] ∧
      g.stimuliLib.uiDesiredDurationMs = 0 ∧ ¬ NoEffect env g "hello".toList busy := by
  decide +kernel

end Orbiter.Main
