import Orbiter.Main.Events
import Orbiter.Machine.FlushQueue

/-!
# Starts

The stimuli queue over whole runs, and which of its stimuli were started.

* `stimuliHistory_reachable`: the queue and the stimuli that left it are a queue that
  can be flushed.
* `StartedOnce`: what the stimuli started so far have to do with those that left.
* `stimuli_started_in_order`: **stimuli are started in order and at most once**, and a
  remainder is played right after the start it is left from.
-/

namespace Orbiter.Main

open Cxx Toolbox Stimuli Globals

variable {env : Env}

def left : Event → Option Ref
  | .play front _ _ _ => some front
  | .pop front => some front
  | .take front => some front
  | _ => none

def started : Event → Option Ref
  | .play front _ _ _ => some front
  | .loop hijacked => some hijacked
  | _ => none

/-- The stimuli that left the queue in a run: popped or taken. -/
def leftIn (env : Env) (acts : List Act) : List Ref := (events env acts).filterMap left

def startedIn (env : Env) (acts : List Act) : List Ref := (events env acts).filterMap started

/-- The next tick handles a message that clears the stimuli queue. -/
def Globals.InstantStimulus (env : Env) (g : Globals) : Prop :=
  g.message ≠ [] ∧ (decodeHostData env.pow g.message 0).stimQueued = false

instance (g : Globals) : Decidable (g.InstantStimulus env) := by
  unfold Globals.InstantStimulus; infer_instance

def discardedBy (env : Env) (g : Globals) : Act → List Ref
  | .tick _ => if g.InstantStimulus env then g.stimuliLib.stimuliQueue else []
  | _ => []

/-- The stimuli discarded in a run: those that waited when an instant one came. -/
def discarded (env : Env) (acts : List Act) : List Ref :=
  ((machine env).steps acts).flatMap fun x => discardedBy env x.1 x.2

theorem discarded_concat (acts : List Act) (a : Act) :
    discarded env (acts ++ [a]) =
      discarded env acts ++ discardedBy env ((machine env).run acts) a := by
  rw [discarded, Machine.steps_concat, List.flatMap_append, List.flatMap_singleton]
  rfl

theorem leftIn_concat (acts : List Act) (a : Act) : leftIn env (acts ++ [a]) =
    leftIn env acts ++ (eventsBy env ((machine env).run acts) a).filterMap left := by
  rw [leftIn, events_concat, List.filterMap_append]
  rfl

/-! ### The queue -/

def stimuliHistory (env : Env) (acts : List Act) : FlushQueue Ref where
  waiting := ((machine env).run acts).stimuliLib.stimuliQueue
  arrived := List.range ((machine env).run acts).heap.next
  served := leftIn env acts
  dropped := discarded env acts

theorem history_afterMessage (env : Env) (g : Globals) (served dropped : List Ref) :
    ∃ word, FlushQueue.machine.runFrom
        ⟨g.stimuliLib.stimuliQueue, List.range g.heap.next, served, dropped⟩ word =
      ⟨(g.afterMessage env).stimuliLib.stimuliQueue, List.range (g.afterMessage env).heap.next,
        served, dropped ++ if g.InstantStimulus env then g.stimuliLib.stimuliQueue else []⟩ := by
  rcases playback_afterMessage env g with ⟨hm, hheap, hlib⟩ | ⟨hm, hheap, hlib⟩
  · refine ⟨[], ?_⟩
    rw [if_neg (fun h => h.1 hm), hheap, hlib, List.append_nil]
    rfl
  · rw [hlib, hheap, Store.next_alloc, List.range_succ]
    cases hs : (decodeHostData env.pow g.message 0).stimQueued with
    | true =>
      refine ⟨[.arrive g.heap.next], ?_⟩
      have hi : ¬ g.InstantStimulus env := fun h => absurd (h.2.symm.trans hs) (by simp)
      rw [if_pos rfl, if_neg hi, List.append_nil]
      rfl
    | false =>
      refine ⟨[.flush, .arrive g.heap.next], ?_⟩
      rw [if_neg (by simp), if_pos ⟨hm, hs⟩]
      rfl

theorem continueEvents_left (heap : Store HostData) (r : Ref) (movementQueue : List Ref)
    (answers : Answers) :
    (StimuliLibrary.continueEvents heap r movementQueue answers).filterMap left = [] := by
  rw [StimuliLibrary.continueEvents]
  split_ifs <;> rfl

theorem stopEvents_left (length : Nat) :
    (StimuliLibrary.stopEvents length).filterMap left = [] := by
  rw [StimuliLibrary.stopEvents]
  split_ifs <;> rfl

/-- In a tick the front of the queue leaves it, or nothing does. -/
theorem left_tick {g : Globals} (hg : (machine env).Reachable g) (answers : Answers) :
    ((eventsBy env g (.tick answers)).filterMap left = [] ∧
      (g.timerFunc env answers).stimuliLib.stimuliQueue =
        (g.afterMessage env).stimuliLib.stimuliQueue) ∨
    ∃ front, (eventsBy env g (.tick answers)).filterMap left = [front] ∧
      (g.afterMessage env).stimuliLib.stimuliQueue =
        front :: (g.timerFunc env answers).stimuliLib.stimuliQueue := by
  have hevents := tickEvents hg answers
  generalize eventsBy env g (.tick answers) = evs at hevents
  cases hevents with
  | hijacked r progress queue after => exact Or.inl ⟨continueEvents_left _ _ _ _, queue⟩
  | take front free queue after =>
    exact Or.inr ⟨front, congrArg (List.cons front) (continueEvents_left _ _ _ _), queue⟩
  | remainder queue free owed fraction => exact Or.inl ⟨rfl, queue⟩
  | idle lib free =>
    left
    rw [lib]
    exact ⟨rfl, rfl⟩
  | play front audio length desired queue free triggered sound duration left =>
    exact Or.inr ⟨front, congrArg (List.cons front) (stopEvents_left _), queue⟩
  | pop front queue free fraction => exact Or.inr ⟨front, rfl, queue⟩

theorem history_concat (acts : List Act) (a : Act) :
    ∃ word, FlushQueue.machine.runFrom (stimuliHistory env acts) word =
      stimuliHistory env (acts ++ [a]) := by
  have hg := (machine env).reachable_run acts
  rw [stimuliHistory, stimuliHistory, leftIn_concat, discarded_concat, Machine.run_concat]
  generalize (machine env).run acts = g at hg
  cases a with
  | tcpPush msg =>
    refine ⟨[], ?_⟩
    simp only [eventsBy_tcpPush, discardedBy, List.filterMap_nil, List.append_nil]
    rfl
  | irPush code =>
    refine ⟨[], ?_⟩
    simp only [eventsBy_irPush, discardedBy, List.filterMap_nil, List.append_nil]
    rfl
  | tick answers =>
    obtain ⟨word, hword⟩ := history_afterMessage env g (leftIn env acts) (discarded env acts)
    have hnext : (g.timerFunc env answers).heap.next = (g.afterMessage env).heap.next :=
      (started_timerFunc env g answers).next
    show ∃ word, _ = FlushQueue.mk (g.timerFunc env answers).stimuliLib.stimuliQueue
      (List.range (g.timerFunc env answers).heap.next) _ _
    rw [hnext]
    rcases left_tick hg answers with ⟨hleft, hqueue⟩ | ⟨front, hleft, hqueue⟩
    · refine ⟨word, hword.trans ?_⟩
      rw [hleft, hqueue, List.append_nil]
      rfl
    · refine ⟨word ++ [.serve], ?_⟩
      rw [Machine.runFrom_append, hword, hleft, hqueue]
      rfl

/-- **The stimuli queue of the program is a queue that can be flushed.** -/
theorem stimuliHistory_reachable (env : Env) (acts : List Act) :
    FlushQueue.machine.Reachable (stimuliHistory env acts) := by
  induction acts using List.reverseRecOn with
  | nil => exact ⟨[], rfl⟩
  | append_singleton acts a ih =>
    obtain ⟨word, hword⟩ := ih
    obtain ⟨more, hmore⟩ := history_concat acts a
    exact ⟨word ++ more, by rw [Machine.run_append, hword, hmore]⟩

/-- What left the queue and what waits are the messages decoded, less those discarded,
in their order. -/
theorem leftIn_append_stimuliQueue (acts : List Act) :
    leftIn env acts ++ ((machine env).run acts).stimuliLib.stimuliQueue =
      (List.range ((machine env).run acts).heap.next).filter fun r => r ∉ discarded env acts := by
  obtain ⟨word, hword⟩ := stimuliHistory_reachable env acts
  have hnodup : (FlushQueue.machine.run word).arrived.Nodup := by
    rw [hword]
    exact List.nodup_range
  have horder := FlushQueue.served_append_waiting word hnodup
  rw [hword] at horder
  exact horder

theorem perm_stimuli (env : Env) (acts : List Act) :
    (leftIn env acts ++ ((machine env).run acts).stimuliLib.stimuliQueue ++
      discarded env acts).Perm (List.range ((machine env).run acts).heap.next) := by
  obtain ⟨word, hword⟩ := stimuliHistory_reachable env acts
  have hperm := FlushQueue.perm_run word
  rw [hword] at hperm
  exact hperm

/-- Stimuli leave the queue in the order of their arrival. -/
theorem pairwise_leftIn (acts : List Act) : (leftIn env acts).Pairwise (· < ·) := by
  have h : (leftIn env acts ++ ((machine env).run acts).stimuliLib.stimuliQueue).Pairwise
      (· < ·) := by
    rw [leftIn_append_stimuliQueue]
    exact List.Pairwise.filter _ List.pairwise_lt_range
  exact (List.pairwise_append.mp h).1

/-! ### The starts -/

/-- The started stimuli are among those that left, and the movement-bound one left
last: while it is still to be started it has not been. -/
structure StartedOnce (g : Globals) (left started : List Ref) : Prop where
  sublist : started.Sublist left
  hijacked : ∀ r, g.stimuliLib.hostDataOfHijackedProtocol = some r →
    ∃ before, left = before ++ [r] ∧
      ((g.heap.deref r).toBeTriggerd = true → started.Sublist before)

/-- What a movement-bound stimulus may start: itself, while something moves. -/
theorem continueEvents_started (heap : Store HostData) (r : Ref) (movementQueue : List Ref)
    (answers : Answers) :
    (StimuliLibrary.continueEvents heap r movementQueue answers).filterMap started =
      if StimuliLibrary.moving movementQueue answers && (heap.deref r).toBeTriggerd then [r]
      else [] := by
  rw [StimuliLibrary.continueEvents]
  cases StimuliLibrary.moving movementQueue answers <;>
    cases (heap.deref r).toBeTriggerd <;> cases answers.finishedReached <;> rfl

theorem stopEvents_started (length : Nat) :
    (StimuliLibrary.stopEvents length).filterMap started = [] := by
  rw [StimuliLibrary.stopEvents]
  split_ifs <;> rfl

/-- A tick of the movement-bound stimulus `r`, which left the queue last. -/
theorem startedOnce_bound {g : Globals} {answers : Answers} {r : Ref} {before starts : List Ref}
    (after : BoundAfter env g answers r) (hsub : starts.Sublist (before ++ [r]))
    (hnew : ((g.afterMessage env).heap.deref r).toBeTriggerd = true → starts.Sublist before) :
    StartedOnce (g.timerFunc env answers) (before ++ [r]) (starts ++
      (StimuliLibrary.continueEvents (g.afterMessage env).heap r
        (g.timerFunc env answers).movementQueue answers).filterMap started) := by
  rw [continueEvents_started]
  cases hmoving : StimuliLibrary.moving (g.timerFunc env answers).movementQueue answers with
  | false =>
    rw [Bool.false_and, if_neg (by simp), List.append_nil]
    refine ⟨hsub, ?_⟩
    intro r' hr'
    rw [after.hijacked, hmoving] at hr'
    split_ifs at hr'
    obtain rfl := Option.some.inj hr'
    refine ⟨before, rfl, ?_⟩
    rw [after.heap hmoving]
    exact hnew
  | true =>
    have hsilent := after.silent hmoving
    refine ⟨?_, ?_⟩
    · rw [Bool.true_and]
      split_ifs with ht
      · exact (hnew ht).append (List.Sublist.refl _)
      · rwa [List.append_nil]
    · intro r' hr'
      rw [after.hijacked, hmoving, Bool.true_or, if_pos rfl] at hr'
      obtain rfl := Option.some.inj hr'
      refine ⟨before, rfl, ?_⟩
      intro ht
      rw [hsilent] at ht
      exact absurd ht (by simp)

/-- A movement-bound stimulus is in the store. -/
theorem deref_afterMessage_of_hijacked {g : Globals} (hg : (machine env).Reachable g) {r : Ref}
    (hj : g.stimuliLib.hostDataOfHijackedProtocol = some r) :
    (g.afterMessage env).heap.deref r = g.heap.deref r := by
  rcases playback_afterMessage env g with ⟨-, hheap, -⟩ | ⟨-, hheap, -⟩
  · rw [hheap]
  · have hplayable := (stimuliInvariant.of_reachable hg).playable
    rw [hheap, Store.deref_alloc_of_lt (hplayable.lt_next hj)]

theorem startedOnce_tick {g : Globals} (hg : (machine env).Reachable g) {lefts starts : List Ref}
    (h : StartedOnce g lefts starts) (answers : Answers) :
    StartedOnce (g.timerFunc env answers)
      (lefts ++ (eventsBy env g (.tick answers)).filterMap left)
      (starts ++ (eventsBy env g (.tick answers)).filterMap started) := by
  have hevents := tickEvents hg answers
  generalize eventsBy env g (.tick answers) = evs at hevents
  cases hevents with
  | hijacked r progress queue after =>
    obtain ⟨before, rfl, hnew⟩ := h.hijacked r progress
    rw [continueEvents_left, List.append_nil]
    refine startedOnce_bound after h.sublist ?_
    rw [deref_afterMessage_of_hijacked hg progress]
    exact hnew
  | take front free queue after =>
    have hleft : (Event.take front :: StimuliLibrary.continueEvents (g.afterMessage env).heap front
        (g.timerFunc env answers).movementQueue answers).filterMap left = [front] :=
      congrArg (List.cons front) (continueEvents_left _ _ _ _)
    rw [hleft]
    exact startedOnce_bound after (h.sublist.trans (List.sublist_append_left _ _))
      fun _ => h.sublist
  | remainder queue free owed fraction =>
    have hsub : (starts ++ []).Sublist (lefts ++ []) := by simpa using h.sublist
    exact ⟨hsub, fun r hr => absurd (free.symm.trans hr) (by simp)⟩
  | idle lib free =>
    refine ⟨by simpa using h.sublist, ?_⟩
    intro r hr
    rw [lib] at hr
    have hfree := (afterMessage_frame env g).hostDataOfHijackedProtocol.trans free
    exact absurd (hfree.symm.trans hr) (by simp)
  | play front audio length desired queue free triggered sound duration =>
    have hleft : (Event.play front audio length desired ::
        StimuliLibrary.stopEvents length).filterMap left = [front] :=
      congrArg (List.cons front) (stopEvents_left _)
    have hstarted : (Event.play front audio length desired ::
        StimuliLibrary.stopEvents length).filterMap started = [front] :=
      congrArg (List.cons front) (stopEvents_started _)
    rw [hleft, hstarted]
    exact ⟨h.sublist.append (List.Sublist.refl _),
      fun r hr => absurd (free.symm.trans hr) (by simp)⟩
  | pop front queue free fraction =>
    have hsub : (starts ++ []).Sublist (lefts ++ [front]) := by
      rw [List.append_nil]
      exact h.sublist.trans (List.sublist_append_left _ _)
    exact ⟨hsub, fun r hr => absurd (free.symm.trans hr) (by simp)⟩

theorem startedOnce (acts : List Act) :
    StartedOnce ((machine env).run acts) (leftIn env acts) (startedIn env acts) := by
  refine events_induction
    (P := fun g evs => StartedOnce g (evs.filterMap left) (evs.filterMap started))
    ⟨List.Sublist.refl _, nofun⟩ ?_ ?_ ?_ acts
  · exact fun g evs msg h => ⟨h.sublist, h.hijacked⟩
  · exact fun g evs code h => ⟨h.sublist, h.hijacked⟩
  · intro g evs answers hg h
    rw [List.filterMap_append, List.filterMap_append]
    exact startedOnce_tick hg h answers

/-! ### What is started -/

/-- What is started was to be triggered, and is played with the sound and duration of
its own `HostData`. -/
def StartsOwn (heap : Store HostData) : Event → Prop
  | .play front audio _ desired => (heap.deref front).toBeTriggerd = true ∧
      desired = (heap.deref front).stimulusDuration ∧
      ∃ sound, audio = some sound ∧
        pathToAudio (heap.deref front).stimulusNr = some sound.path
  | .loop hijacked => (heap.deref hijacked).toBeTriggerd = true
  | _ => True

theorem StartsOwn.of_started {heap heap' : Store HostData} (h : Started heap heap') {e : Event}
    (he : StartsOwn heap' e) : StartsOwn heap e := by
  cases e with
  | play front audio length desired =>
    have hderef := h.toBeTriggerd he.1
    rw [StartsOwn, hderef] at he
    exact he
  | loop r =>
    have hderef := h.toBeTriggerd he
    rw [StartsOwn, hderef] at he
    exact he
  | _ => trivial

theorem lt_next_of_toBeTriggerd {heap : Store HostData} {r : Ref}
    (h : (heap.deref r).toBeTriggerd = true) : r < heap.next := by
  by_contra hge
  rw [Store.deref_of_ge (Nat.le_of_not_lt hge)] at h
  exact absurd h (by decide)

theorem StartsOwn.alloc {heap : Store HostData} {e : Event} (he : StartsOwn heap e)
    (d : HostData) : StartsOwn (heap.alloc d) e := by
  cases e with
  | play front audio length desired =>
    rw [StartsOwn, Store.deref_alloc_of_lt (lt_next_of_toBeTriggerd he.1)]
    exact he
  | loop r =>
    rw [StartsOwn, Store.deref_alloc_of_lt (lt_next_of_toBeTriggerd he)]
    exact he
  | _ => trivial

theorem startsOwn_continueEvents (heap : Store HostData) (r : Ref) (movementQueue : List Ref)
    (answers : Answers) :
    ∀ e ∈ StimuliLibrary.continueEvents heap r movementQueue answers, StartsOwn heap e := by
  intro e he
  rcases StimuliLibrary.mem_continueEvents he with ⟨rfl, ht⟩ | rfl | rfl
  · exact ht
  · trivial
  · trivial

theorem startsOwn_tick {g : Globals} (hg : (machine env).Reachable g) (answers : Answers) :
    ∀ e ∈ eventsBy env g (.tick answers), StartsOwn (g.afterMessage env).heap e := by
  have hevents := tickEvents hg answers
  generalize eventsBy env g (.tick answers) = evs at hevents
  intro e he
  cases hevents with
  | hijacked r progress queue after => exact startsOwn_continueEvents _ _ _ _ e he
  | take front free queue after =>
    rcases List.mem_cons.mp he with rfl | he
    · trivial
    · exact startsOwn_continueEvents _ _ _ _ e he
  | remainder queue free owed fraction =>
    rw [List.mem_singleton.mp he]
    trivial
  | idle lib free => exact absurd he (by simp)
  | play front audio length desired queue free triggered sound duration =>
    rcases List.mem_cons.mp he with rfl | he
    · exact ⟨triggered, duration, sound⟩
    · rw [StimuliLibrary.mem_stopEvents he]
      trivial
  | pop front queue free fraction =>
    rw [List.mem_singleton.mp he]
    trivial

/-- **Everything started was to be triggered on its arrival.** -/
theorem startsOwn (acts : List Act) :
    ∀ e ∈ events env acts, StartsOwn (((machine env).run acts).hostData env) e := by
  refine events_induction (P := fun g evs => ∀ e ∈ evs, StartsOwn (g.hostData env) e)
    (fun e he => absurd he List.not_mem_nil) (fun _ _ _ h => h) (fun _ _ _ h => h) ?_ acts
  intro g evs answers hg h e he
  have hstarted : Started (g.hostData env) g.heap := started_hostData.of_reachable hg
  rw [hostData_timerFunc]
  rcases List.mem_append.mp he with he | he
  · by_cases hm : g.message = []
    · rw [afterMessage_of_nil env hm]
      exact h e he
    · rw [hostData, (afterMessage_of_ne_nil env hm).decoded, List.map_append]
      exact (h e he).alloc _
  · exact (startsOwn_tick hg answers e he).of_started (started_hostData_afterMessage hstarted)

/-! ### The remainders -/

/-- A remainder comes right behind the start it is left from, with its sound, and with the
rest and the fraction that the division of its duration left. -/
def FollowsStart (files : Files) (before : List Event) : Event → Prop
  | .remainder audio length desired fraction => ∃ before' front whole,
      before = before' ++ [.play front audio length whole] ∧ length < whole ∧
        desired = files.double.rest whole length ∧ fraction = files.double.fraction whole length
  | _ => True

/-- What is left to play is left from the last event. -/
def Owing (files : Files) (lib : StimuliLibrary) (evs : List Event) : Prop :=
  lib.dFractionOfAudioFileLeftToPlay ≠ 0 → ∃ before front audio length desired,
    evs = before ++ [.play front audio length desired] ∧ LeftToPlay files lib audio length desired

theorem forall_split_append {α : Type*} {P : List α → α → Prop} {old new : List α}
    (hold : ∀ before e after, old = before ++ e :: after → P before e)
    (hnew : ∀ before e after, new = before ++ e :: after → P (old ++ before) e) :
    ∀ before e after, old ++ new = before ++ e :: after → P before e := by
  intro before e after h
  rcases List.append_eq_append_iff.mp h with ⟨mid, hbefore, hmid⟩ | ⟨mid, hold', hmid⟩
  · rw [hbefore]
    exact hnew mid e after hmid
  · cases mid with
    | nil =>
      rw [List.append_nil] at hold'
      have := hnew [] e after hmid.symm
      rwa [List.append_nil, hold'] at this
    | cons e' mid =>
      obtain ⟨rfl, -⟩ := List.cons.inj hmid
      exact hold before e mid hold'

theorem owing_of_zero (files : Files) {lib : StimuliLibrary}
    (h : lib.dFractionOfAudioFileLeftToPlay = 0) (evs : List Event) : Owing files lib evs :=
  fun hne => absurd h hne

theorem owing_tick {g : Globals} (hg : (machine env).Reachable g) {evs : List Event}
    (h : Owing env.toFiles g.stimuliLib evs) (answers : Answers) :
    Owing env.toFiles (g.timerFunc env answers).stimuliLib
      (evs ++ eventsBy env g (.tick answers)) := by
  have hevents := tickEvents hg answers
  generalize eventsBy env g (.tick answers) = new at hevents
  cases hevents with
  | hijacked r progress queue after => exact owing_of_zero _ after.fraction _
  | take front free queue after => exact owing_of_zero _ after.fraction _
  | remainder queue free owed fraction => exact owing_of_zero _ fraction _
  | idle lib free =>
    obtain ⟨newQueue, hmsg⟩ := afterMessage_stimuliLib env g
    rw [lib, hmsg, List.append_nil]
    intro hne
    obtain ⟨before, front, audio, length, desired, hevs, hleft⟩ := h hne
    exact ⟨before, front, audio, length, desired, hevs,
      ⟨hleft.audio, hleft.audioFileLengthMs, hleft.longer, hleft.uiDesiredDurationMs,
        hleft.dFractionOfAudioFileLeftToPlay, hleft.ne_zero⟩⟩
  | play front audio length desired queue free triggered sound duration left =>
    intro hne
    have hleft := left hne
    refine ⟨evs, front, audio, length, desired, ?_, hleft⟩
    rw [StimuliLibrary.stopEvents, if_neg hleft.ne_zero]
  | pop front queue free fraction => exact owing_of_zero _ fraction _

/-- Only the way of the remainder plays one. -/
theorem followsStart_tick {g : Globals} (hg : (machine env).Reachable g) {evs : List Event}
    (h : Owing env.toFiles g.stimuliLib evs) (answers : Answers) :
    ∀ before e after, eventsBy env g (.tick answers) = before ++ e :: after →
      FollowsStart env.toFiles (evs ++ before) e := by
  have hevents := tickEvents hg answers
  generalize eventsBy env g (.tick answers) = new at hevents
  intro before e after he
  have hmem : e ∈ new := by rw [he]; simp
  have hbound : ∀ r, e ∈ StimuliLibrary.continueEvents (g.afterMessage env).heap r
      (g.timerFunc env answers).movementQueue answers →
      FollowsStart env.toFiles (evs ++ before) e := by
    intro r hr
    rcases StimuliLibrary.mem_continueEvents hr with ⟨rfl, -⟩ | rfl | rfl
    · trivial
    · trivial
    · trivial
  cases hevents with
  | hijacked r progress queue after => exact hbound r hmem
  | take front free queue after =>
    rcases List.mem_cons.mp hmem with rfl | hmem
    · trivial
    · exact hbound front hmem
  | remainder queue free owed fraction =>
    obtain ⟨rfl, rfl⟩ : before = [] ∧ e = .remainder g.stimuliLib.audio
        g.stimuliLib.audioFileLengthMs g.stimuliLib.uiDesiredDurationMs
        g.stimuliLib.dFractionOfAudioFileLeftToPlay := by
      cases before with
      | nil => exact ⟨rfl, (List.cons.inj he).1.symm⟩
      | cons b before => exact absurd (List.cons.inj he).2 (by simp)
    obtain ⟨before, front, audio, length, desired, hevs, hleft⟩ :=
      h (StimuliLibrary.fraction_ne_zero owed)
    rw [List.append_nil]
    refine ⟨before, front, desired, ?_, ?_, ?_, ?_⟩
    · rw [hevs, hleft.audio, hleft.audioFileLengthMs]
    · rw [hleft.audioFileLengthMs]
      exact hleft.longer
    · rw [hleft.uiDesiredDurationMs, hleft.audioFileLengthMs]
    · rw [hleft.dFractionOfAudioFileLeftToPlay, hleft.audioFileLengthMs]
  | idle lib free => exact absurd hmem (by simp)
  | play front audio length desired queue free triggered sound duration left =>
    rcases List.mem_cons.mp hmem with rfl | hmem
    · trivial
    · rw [StimuliLibrary.mem_stopEvents hmem]
      trivial
  | pop front queue free fraction =>
    rw [List.mem_singleton.mp hmem]
    trivial

theorem owing_run (acts : List Act) :
    Owing env.toFiles ((machine env).run acts).stimuliLib (events env acts) ∧
      ∀ before e after, events env acts = before ++ e :: after →
        FollowsStart env.toFiles before e := by
  refine events_induction (P := fun g evs => Owing env.toFiles g.stimuliLib evs ∧
      ∀ before e after, evs = before ++ e :: after → FollowsStart env.toFiles before e)
    ⟨owing_of_zero _ rfl _, ?_⟩ (fun _ _ _ h => h) (fun _ _ _ h => h) ?_ acts
  · intro before e after h
    exact absurd h (by simp)
  · intro g evs answers hg h
    exact ⟨owing_tick hg h.1 answers, forall_split_append h.2 (followsStart_tick hg h.1 answers)⟩

/-- **Stimuli are started in order and at most once.**  Every `HostData` decoded waits in
the order of arrival, has left the queue or was discarded, once; the started ones are
started in the order of arrival, once, and were to be triggered; nothing else is unpaused
in an infinite loop; and a remainder is played right behind the start it is left from. -/
theorem stimuli_started_in_order (acts : List Act) :
    let g := (machine env).run acts
    leftIn env acts ++ g.stimuliLib.stimuliQueue =
        (List.range g.decoded.length).filter (fun r => r ∉ discarded env acts) ∧
      (leftIn env acts ++ g.stimuliLib.stimuliQueue ++ discarded env acts).Perm
        (List.range g.decoded.length) ∧
      (startedIn env acts).Pairwise (· < ·) ∧
      (∀ e ∈ events env acts, StartsOwn (g.hostData env) e) ∧
      Orderly g.stimuliLib.calls ∧
      ∀ before e after, events env acts = before ++ e :: after →
        FollowsStart env.toFiles before e := by
  intro g
  have hstore : Started (g.hostData env) g.heap := started_hostData.run acts
  have hlength : g.heap.next = g.decoded.length := by
    rw [hstore.next, Store.next, hostData, List.length_map]
  rw [← hlength]
  exact ⟨leftIn_append_stimuliQueue acts, perm_stimuli env acts,
    (pairwise_leftIn acts).sublist (startedOnce acts).sublist, startsOwn acts,
    (logged_reachable env).run acts, (owing_run acts).2⟩

end Orbiter.Main
