import Orbiter.Stimuli.Processing

/-!
# Playback, without FMOD

What the library decides does not depend on FMOD's objects: a `Playback` keeps the
queue, the movement-bound stimulus and three numbers, and `Playback.tick` is the
stimuli part of a tick on it.

* `playStimuli_playback`: **the split of a long duration** — the duration left for
  the next call is the rest of the desired one by the length of the sound.
* `processStimuli_playback`: the library follows `Playback.tick`.
* `Playback.Owes`: **a remainder is shorter than the sound.**
* `Playback.tick_nil`, `Playback.tick_front`, ...: what a tick does, case by case.
-/

namespace Orbiter.Stimuli

open Cxx Toolbox

/-- The stimuli that wait, the movement-bound one, the length of the sound loaded
last, and the duration and fraction of it that are still to be played. -/
structure Playback where
  queue : List Ref
  hijacked : Option Ref
  length : Nat
  desired : Nat
  fraction : ℚ

namespace Playback

variable (files : Files) (heap : Store HostData) (p : Playback)

def load (d : HostData) : Playback :=
  { p with
    length := (pathToAudio d.stimulusNr).elim p.length files.length
    desired := d.stimulusDuration
    fraction := 0 }

/-- One call of `playStimuli`: a long duration leaves its remainder, a short one
leaves nothing. -/
def play : Playback :=
  if p.length = 0 then p
  else if p.length < p.desired then
    { p with
      fraction := files.double.fraction p.desired p.length
      desired := files.double.rest p.desired p.length }
  else if p.desired < p.length then { p with fraction := 0 }
  else p

def candidate : Option Ref := p.hijacked.or p.queue.head?

/-- The candidate is to be played as long as movements are pending. -/
def bound : Bool :=
  p.candidate.any fun r =>
    (heap.deref r).stimulusDuration == iPlayStimulusAsLongAsMovementsPending &&
      (p.hijacked.isNone || (pathToAudio (heap.deref r).stimulusNr).isSome)

def lookAhead : Playback :=
  p.candidate.elim p fun r => p.load files (heap.deref r)

/-- The candidate becomes the movement-bound stimulus. -/
def takeBound : Playback :=
  match p.hijacked, p.queue with
  | none, front :: rest =>
    { p with hijacked := some front, queue := rest }.load files (heap.deref front)
  | _, _ => p

def silence : Store HostData :=
  match p.hijacked with
  | some r =>
    if (heap.deref r).toBeTriggerd then heap.update r fun d => { d with toBeTriggerd := false }
    else heap
  | none => heap

/-- A movement-bound stimulus ends when nothing moves any more. -/
def continueBound (moving finished : Bool) : Store HostData × Playback :=
  if moving then (p.silence heap, p)
  else (heap, if finished then { p with hijacked := none } else p)

/-- A stimulus taken from the queue is played if it is to be triggered. -/
def trigger (d : HostData) : Playback :=
  if d.toBeTriggerd then
    if (pathToAudio d.stimulusNr).isSome then (p.load files d).play files else p.load files d
  else p

/-- A remainder goes first, then the front of the queue. -/
def playNext : Playback :=
  if 0.0001 < p.fraction then p.play files
  else
    match p.queue with
    | [] => p
    | front :: rest => { p with queue := rest }.trigger files (heap.deref front)

def tick (moving finished : Bool) : Store HostData × Playback :=
  let next := p.lookAhead files heap
  if p.bound heap then (next.takeBound files heap).continueBound heap moving finished
  else (heap, next.playNext files heap)

end Playback

/-! ### What a tick keeps -/

/-- The objects are those of before; some were started. -/
structure Started (heap heap' : Store HostData) : Prop where
  next : heap'.next = heap.next
  deref : ∀ r, heap'.deref r = heap.deref r ∨
    heap'.deref r = { heap.deref r with toBeTriggerd := false }

theorem Started.refl (heap : Store HostData) : Started heap heap := ⟨rfl, fun _ => Or.inl rfl⟩

theorem Started.trans {heap heap' heap'' : Store HostData} (h : Started heap heap')
    (h' : Started heap' heap'') : Started heap heap'' where
  next := h'.next.trans h.next
  deref r := by
    rcases h.deref r with hr | hr <;> rcases h'.deref r with hr' | hr' <;> simp [hr, hr']

theorem Started.alloc {heap heap' : Store HostData} (h : Started heap heap') (d : HostData) :
    Started (heap.alloc d) (heap'.alloc d) where
  next := by rw [Store.next_alloc, Store.next_alloc, h.next]
  deref r := by
    rcases lt_trichotomy r heap.next with hlt | rfl | hgt
    · rw [Store.deref_alloc_of_lt hlt, Store.deref_alloc_of_lt (by rwa [h.next])]
      exact h.deref r
    · have hnew := Store.deref_next heap' d
      rw [h.next] at hnew
      exact Or.inl (by rw [hnew, Store.deref_next])
    · left
      rw [Store.deref_of_ge (by rw [Store.next_alloc, h.next]; exact hgt),
        Store.deref_of_ge (by rw [Store.next_alloc]; exact hgt)]

theorem Started.toBeTriggerd {heap heap' : Store HostData} (h : Started heap heap') {r : Ref}
    (hr : (heap'.deref r).toBeTriggerd = true) : heap'.deref r = heap.deref r := by
  rcases h.deref r with hr' | hr'
  · exact hr'
  · rw [hr'] at hr
    exact absurd hr (by simp)

namespace Playback

variable (files : Files) (heap : Store HostData) (p : Playback)

theorem started_silence : Started heap (p.silence heap) := by
  rw [silence]
  cases p.hijacked with
  | none => exact Started.refl heap
  | some r =>
    simp only
    split
    · refine ⟨Store.next_update _ _ _, ?_⟩
      intro r'
      rcases heap.deref_update r (fun d => { d with toBeTriggerd := false }) r' with h | ⟨-, h⟩
      · exact Or.inl h
      · exact Or.inr h
    · exact Started.refl heap

theorem started_tick (moving finished : Bool) :
    Started heap (p.tick files heap moving finished).1 := by
  unfold tick continueBound
  cases p.bound heap with
  | false => exact Started.refl heap
  | true =>
    cases moving with
    | false => exact Started.refl heap
    | true => exact started_silence heap _

/-- What is owed is shorter than the sound. -/
def Owes : Prop := p.fraction = 0 ∨ p.desired < p.length

theorem owes_load (d : HostData) : (p.load files d).Owes := Or.inl rfl

variable {p}

theorem Owes.lt_length (h : p.Owes) (hf : p.fraction ≠ 0) : p.desired < p.length :=
  h.resolve_left hf

/-- An owed remainder is shorter than the sound, so it is cut and nothing is left. -/
theorem Owes.play_eq (h : p.Owes) (hf : p.fraction ≠ 0) :
    p.length ≠ 0 ∧ p.play files = { p with fraction := 0 } := by
  have hlt := h.lt_length hf
  have hne : p.length ≠ 0 := by omega
  rw [Playback.play, if_neg hne, if_neg (by omega), if_pos hlt]
  exact ⟨hne, rfl⟩

theorem Owes.play (h : p.Owes) : (p.play files).Owes := by
  rw [Playback.play]
  by_cases h0 : p.length = 0
  · rwa [if_pos h0]
  · rw [if_neg h0]
    by_cases hlt : p.length < p.desired
    · rw [if_pos hlt]
      exact Or.inr (files.double.rest_lt (Nat.pos_of_ne_zero h0) hlt.le)
    · rw [if_neg hlt]
      by_cases hgt : p.desired < p.length
      · rw [if_pos hgt]
        exact Or.inl rfl
      · rwa [if_neg hgt]

theorem Owes.trigger (h : p.Owes) (d : HostData) : (p.trigger files d).Owes := by
  rw [Playback.trigger]
  split
  · split
    · exact (owes_load files p d).play files
    · exact owes_load files p d
  · exact h

theorem Owes.lookAhead (h : p.Owes) : (p.lookAhead files heap).Owes := by
  rw [Playback.lookAhead]
  cases p.candidate with
  | none => exact h
  | some r => exact owes_load files p _

theorem Owes.takeBound (h : p.Owes) : (p.takeBound files heap).Owes := by
  rw [Playback.takeBound]
  split
  · exact owes_load files _ _
  · exact h

theorem Owes.playNext (h : p.Owes) : (p.playNext files heap).Owes := by
  rw [Playback.playNext]
  split
  · exact h.play files
  · split
    · exact h
    · rename_i front rest hq
      have hrest : { p with queue := rest }.Owes := h
      exact hrest.trigger files _

theorem Owes.tick (h : p.Owes) (moving finished : Bool) :
    (p.tick files heap moving finished).2.Owes := by
  unfold Playback.tick Playback.continueBound
  have hnext := h.lookAhead files heap
  cases p.bound heap with
  | false => exact hnext.playNext files heap
  | true =>
    have htake := hnext.takeBound files heap
    cases moving with
    | true => exact htake
    | false => cases finished <;> exact htake

/-! ### A tick, case by case -/

variable (p)

theorem tick_hijacked {r : Ref} (h : p.hijacked = some r)
    (hd : (heap.deref r).stimulusDuration = iPlayStimulusAsLongAsMovementsPending)
    (hs : (pathToAudio (heap.deref r).stimulusNr).isSome = true) (moving finished : Bool) :
    p.tick files heap moving finished =
      (p.load files (heap.deref r)).continueBound heap moving finished := by
  have hc : p.candidate = some r := by rw [candidate, h, Option.some_or]
  have hb : p.bound heap = true := by
    rw [bound, hc, Option.any_some, hd, hs, Bool.or_true]
    rfl
  have hl : p.lookAhead files heap = p.load files (heap.deref r) := by
    rw [Playback.lookAhead, hc, Option.elim_some]
  rw [Playback.tick, if_pos hb, hl, Playback.takeBound,
    show (p.load files (heap.deref r)).hijacked = some r from h]

variable {p} (hj : p.hijacked = none)

include hj in
theorem tick_nil (hq : p.queue = []) (moving finished : Bool) :
    p.tick files heap moving finished =
      (heap, if 0.0001 < p.fraction then p.play files else p) := by
  have hc : p.candidate = none := by rw [candidate, hj, hq]; rfl
  have hb : ¬ p.bound heap = true := by rw [bound, hc]; simp
  have hl : p.lookAhead files heap = p := by rw [Playback.lookAhead, hc, Option.elim_none]
  rw [Playback.tick, if_neg hb, hl, Playback.playNext, hq]

include hj in
theorem candidate_cons {front : Ref} {rest : List Ref} (hq : p.queue = front :: rest) :
    p.candidate = some front := by
  rw [candidate, hj, hq]
  rfl

include hj in
/-- A movement-bound stimulus at the front is taken. -/
theorem tick_take {front : Ref} {rest : List Ref} (hq : p.queue = front :: rest)
    (hd : (heap.deref front).stimulusDuration = iPlayStimulusAsLongAsMovementsPending)
    (moving finished : Bool) : p.tick files heap moving finished =
      ({ p with hijacked := some front, queue := rest }.load files
        (heap.deref front)).continueBound heap moving finished := by
  have hc := candidate_cons hj hq
  have hb : p.bound heap = true := by
    rw [bound, hc, Option.any_some, hd, hj]
    rfl
  have hl : p.lookAhead files heap = p.load files (heap.deref front) := by
    rw [Playback.lookAhead, hc, Option.elim_some]
  rw [Playback.tick, if_pos hb, hl, Playback.takeBound,
    show (p.load files (heap.deref front)).hijacked = none from hj,
    show (p.load files (heap.deref front)).queue = front :: rest from hq]
  cases hpath : pathToAudio (heap.deref front).stimulusNr <;> simp only [load, hpath] <;> rfl

include hj in
/-- Any other stimulus at the front leaves the queue, and no remainder is left to go
first. -/
theorem tick_front {front : Ref} {rest : List Ref} (hq : p.queue = front :: rest)
    (hd : (heap.deref front).stimulusDuration ≠ iPlayStimulusAsLongAsMovementsPending)
    (moving finished : Bool) : p.tick files heap moving finished =
      (heap, { p.load files (heap.deref front) with queue := rest }.trigger files
        (heap.deref front)) := by
  have hc := candidate_cons hj hq
  have hb : ¬ p.bound heap = true := by
    rw [bound, hc, Option.any_some, beq_eq_false_iff_ne.mpr hd]
    simp
  have hl : p.lookAhead files heap = p.load files (heap.deref front) := by
    rw [Playback.lookAhead, hc, Option.elim_some]
  have hf : ¬ (0.0001 : ℚ) < (p.load files (heap.deref front)).fraction := by
    show ¬ (0.0001 : ℚ) < 0
    norm_num
  rw [Playback.tick, if_neg hb, hl, Playback.playNext, if_neg hf,
    show (p.load files (heap.deref front)).queue = front :: rest from hq]

/-! ### The movement-bound stimulus -/

theorem play_queue (p : Playback) : (p.play files).queue = p.queue := by
  rw [Playback.play]
  split_ifs <;> rfl

theorem trigger_queue (p : Playback) (d : HostData) : (p.trigger files d).queue = p.queue := by
  rw [Playback.trigger]
  split_ifs
  · exact play_queue files _
  · rfl
  · rfl

theorem trigger_of_not_toBeTriggerd (p : Playback) {d : HostData} (h : d.toBeTriggerd = false) :
    p.trigger files d = p := by
  rw [Playback.trigger, if_neg (by simp [h])]

theorem trigger_of_toBeTriggerd (p : Playback) {d : HostData} (h : d.toBeTriggerd = true)
    (hn : (pathToAudio d.stimulusNr).isSome = true) :
    p.trigger files d = (p.load files d).play files := by
  rw [Playback.trigger, if_pos h, if_pos hn]

theorem play_hijacked (p : Playback) : (p.play files).hijacked = p.hijacked := by
  rw [Playback.play]
  split_ifs <;> rfl

theorem trigger_hijacked (p : Playback) (d : HostData) :
    (p.trigger files d).hijacked = p.hijacked := by
  rw [Playback.trigger]
  split_ifs
  · exact play_hijacked files _
  · rfl
  · rfl

end Playback

/-- Every `HostData` of the store is all zero or names a stimulus. -/
def Known (heap : Store HostData) : Prop :=
  ∀ r, heap.deref r = HostData.zero ∨ (pathToAudio (heap.deref r).stimulusNr).isSome = true

theorem Known.started {heap heap' : Store HostData} (h : Known heap) (hs : Started heap heap') :
    Known heap' := by
  intro r
  rcases hs.deref r with hr | hr <;> rw [hr]
  · exact h r
  · rcases h r with hz | hn
    · rw [hz]
      exact Or.inl rfl
    · exact Or.inr hn

/-- What is to be triggered is not all zero. -/
theorem Known.exists_path {heap : Store HostData} (h : Known heap) {r : Ref}
    (ht : (heap.deref r).toBeTriggerd = true) :
    ∃ path, pathToAudio (heap.deref r).stimulusNr = some path := by
  apply Option.isSome_iff_exists.mp
  apply (h r).resolve_left
  intro hz
  rw [hz] at ht
  exact absurd ht (by decide)

theorem Known.alloc {heap : Store HostData} (h : Known heap) {d : HostData}
    (hd : d = HostData.zero ∨ (pathToAudio d.stimulusNr).isSome = true) : Known (heap.alloc d) := by
  intro r
  rcases lt_trichotomy r heap.next with hlt | rfl | hgt
  · rw [Store.deref_alloc_of_lt hlt]
    exact h r
  · rw [Store.deref_next]
    exact hd
  · left
    rw [Store.deref_of_ge (by rw [Store.next_alloc]; exact hgt)]
    rfl

/-- The movement-bound stimulus has the duration that stands for it and can be loaded. -/
def Playback.Playable (heap : Store HostData) (p : Playback) : Prop :=
  ∀ r, p.hijacked = some r →
    (heap.deref r).stimulusDuration = iPlayStimulusAsLongAsMovementsPending ∧
      (pathToAudio (heap.deref r).stimulusNr).isSome = true

theorem Playback.Playable.started {heap heap' : Store HostData} {p : Playback}
    (h : p.Playable heap) (hs : Started heap heap') : p.Playable heap' := by
  intro r hr
  rcases hs.deref r with hr' | hr' <;> rw [hr'] <;> exact h r hr

theorem Playback.Playable.lt_next {heap : Store HostData} {p : Playback} (h : p.Playable heap)
    {r : Ref} (hr : p.hijacked = some r) : r < heap.next := by
  by_contra hge
  have hd := (h r hr).1
  rw [Store.deref_of_ge (Nat.le_of_not_lt hge)] at hd
  exact absurd hd (by decide)

theorem Playback.Playable.alloc {heap : Store HostData} {p : Playback} (h : p.Playable heap)
    (d : HostData) : p.Playable (heap.alloc d) := by
  intro r hr
  rw [Store.deref_alloc_of_lt (h.lt_next hr)]
  exact h r hr

theorem Playback.Playable.continueBound {heap : Store HostData} {p : Playback}
    (h : p.Playable heap) (moving finished : Bool) :
    (p.continueBound heap moving finished).2.Playable
      (p.continueBound heap moving finished).1 := by
  rw [Playback.continueBound]
  cases moving with
  | true => exact h.started (Playback.started_silence heap p)
  | false =>
    cases finished with
    | true => exact fun r hr => absurd hr (by simp)
    | false => exact h

/-- **A movement-bound stimulus is always playable**: what is taken has the duration
991111, so it is not all zero. -/
theorem Playback.Playable.tick {heap : Store HostData} {p : Playback} (files : Files)
    (hk : Known heap) (h : p.Playable heap) (moving finished : Bool) :
    (p.tick files heap moving finished).2.Playable (p.tick files heap moving finished).1 := by
  cases hj : p.hijacked with
  | some r =>
    obtain ⟨hd, hs⟩ := h r hj
    rw [p.tick_hijacked files heap hj hd hs]
    exact Playback.Playable.continueBound (p := p.load files (heap.deref r)) h moving finished
  | none =>
    cases hq : p.queue with
    | nil =>
      rw [p.tick_nil files heap hj hq]
      intro r hr
      have hnone : (if 0.0001 < p.fraction then p.play files else p).hijacked = none := by
        split_ifs
        · rw [play_hijacked, hj]
        · exact hj
      rw [hnone] at hr
      exact absurd hr (by simp)
    | cons front rest =>
      by_cases hd : (heap.deref front).stimulusDuration = iPlayStimulusAsLongAsMovementsPending
      · rw [p.tick_take files heap hj hq hd]
        refine Playback.Playable.continueBound ?_ moving finished
        intro r hr
        obtain rfl := Option.some.inj hr
        refine ⟨hd, (hk _).resolve_left ?_⟩
        intro hz
        rw [hz] at hd
        exact absurd hd (by decide)
      · rw [p.tick_front files heap hj hq hd]
        intro r hr
        rw [trigger_hijacked] at hr
        exact absurd (hj.symm.trans hr) (by simp)

/-! ### The library follows -/

namespace StimuliLibrary

variable (files : Files) (heap : Store HostData) (lib : StimuliLibrary)

def playback : Playback where
  queue := lib.stimuliQueue
  hijacked := lib.hostDataOfHijackedProtocol
  length := lib.audioFileLengthMs
  desired := lib.uiDesiredDurationMs
  fraction := lib.dFractionOfAudioFileLeftToPlay

@[simp] theorem log_playback (cs : List Call) : (lib.log cs).playback = lib.playback := rfl
@[simp] theorem playSound_playback : lib.playSound.playback = lib.playback := rfl
@[simp] theorem stopStimuli_playback : lib.stopStimuli.playback = lib.playback := rfl
@[simp] theorem updateFSystem_playback : lib.updateFSystem.playback = lib.playback := rfl

@[simp] theorem vSetHijackedProtocolIsCompletelyProcessed_playback :
    lib.vSetHijackedProtocolIsCompletelyProcessed.playback =
      { lib.playback with hijacked := none } := rfl

@[simp] theorem playCut_playback (clockDSP : Nat) :
    (lib.playCut files clockDSP).playback = { lib.playback with fraction := 0 } := rfl

@[simp] theorem startOscillator_playback (nr : Int) :
    (lib.startOscillator nr).playback = lib.playback := by
  rw [startOscillator]
  split <;> rfl

/-- The length read after `createSound` is the one of the file. -/
theorem loadAudio_playback (path : String) :
    (lib.loadAudio files path).playback = { lib.playback with length := files.length path } := by
  rw [loadAudio, playSound_playback, log_playback]
  simp only [getLength, createSound, playback, live, beq_self_eq_true, if_true]

theorem switchStimulus_fst (nr : Int) :
    (lib.switchStimulus files nr).1 = (pathToAudio nr).isSome := by
  rw [switchStimulus]
  cases pathToAudio nr <;> rfl

theorem switchStimulus_playback (nr : Int) : (lib.switchStimulus files nr).2.playback =
    { lib.playback with length := (pathToAudio nr).elim lib.playback.length files.length } := by
  rw [switchStimulus]
  cases pathToAudio nr with
  | none => rfl
  | some path => exact lib.loadAudio_playback files path

/-- **A load is valid exactly for the three stimuli.** -/
@[simp] theorem bLoadHostData_fst (d : HostData) :
    (lib.bLoadHostData files d).1 = (pathToAudio d.stimulusNr).isSome :=
  switchStimulus_fst files _ _

@[simp] theorem bLoadHostData_playback (d : HostData) :
    (lib.bLoadHostData files d).2.playback = lib.playback.load files d := by
  rw [bLoadHostData, bLoadStimuli, log_playback, switchStimulus_playback, startOscillator_playback]
  rfl

@[simp] theorem playLooped_playback : (lib.playLooped files).playback =
    { lib.playback with
      fraction := files.double.fraction lib.uiDesiredDurationMs lib.audioFileLengthMs
      desired := files.double.rest lib.uiDesiredDurationMs lib.audioFileLengthMs } := rfl

theorem playCases_playback (clockDSP : Nat) :
    (lib.playCases files clockDSP).playback = lib.playback.play files := by
  unfold playCases Playback.play
  by_cases h0 : lib.audioFileLengthMs = 0
  · rw [if_pos h0, if_pos (show lib.playback.length = 0 from h0), stopStimuli_playback]
  · rw [if_neg h0, if_neg (show ¬ lib.playback.length = 0 from h0)]
    by_cases hlt : lib.audioFileLengthMs < lib.uiDesiredDurationMs
    · rw [if_pos hlt, if_pos (show lib.playback.length < lib.playback.desired from hlt),
        playLooped_playback]
      rfl
    · rw [if_neg hlt, if_neg (show ¬ lib.playback.length < lib.playback.desired from hlt)]
      by_cases hgt : lib.uiDesiredDurationMs < lib.audioFileLengthMs
      · rw [if_pos hgt, if_pos (show lib.playback.desired < lib.playback.length from hgt),
          playCut_playback]
      · rw [if_neg hgt, if_neg (show ¬ lib.playback.desired < lib.playback.length from hgt),
          log_playback]

/-- **The split of a long duration.** -/
@[simp] theorem playStimuli_playback (clockDSP : Nat) :
    (lib.playStimuli files clockDSP).playback = lib.playback.play files := by
  rw [playStimuli, log_playback, playCases_playback, log_playback]

theorem vPlayStimulusIfToBeTriggered_playback {front : Ref} {rest : List Ref}
    (h : lib.stimuliQueue = front :: rest) (clockDSP : Nat) :
    (lib.vPlayStimulusIfToBeTriggered files heap clockDSP).playback =
      { lib.playback with queue := rest }.trigger files (heap.deref front) := by
  simp only [vPlayStimulusIfToBeTriggered, h, Playback.trigger, bLoadHostData_fst]
  split
  · split
    · rw [playStimuli_playback, bLoadHostData_playback]
      rfl
    · rw [bLoadHostData_playback]
      rfl
  · rfl

theorem bLoadHostData_desired (d : HostData) :
    (lib.bLoadHostData files d).2.uiDesiredDurationMs = d.stimulusDuration :=
  congrArg Playback.desired (lib.bLoadHostData_playback files d)

theorem bIsStimulusToPlay_eq :
    (lib.bIsStimulusToPlayAsLongAsMovementsPending files heap).1 = lib.playback.bound heap ∧
      (lib.bIsStimulusToPlayAsLongAsMovementsPending files heap).2.playback =
        lib.playback.lookAhead files heap := by
  rw [bIsStimulusToPlayAsLongAsMovementsPending]
  cases hj : lib.hostDataOfHijackedProtocol with
  | some r =>
    have hj' : lib.playback.hijacked = some r := hj
    simp only [Playback.bound, Playback.lookAhead, Playback.candidate, hj', bLoadHostData_fst]
    split
    · rename_i hv
      simp [hv, bLoadHostData_desired]
    · rename_i hv
      simp [hv]
  | none =>
    have hj' : lib.playback.hijacked = none := hj
    cases hq : lib.stimuliQueue with
    | nil =>
      have hq' : lib.playback.queue = [] := hq
      simp [Playback.bound, Playback.lookAhead, Playback.candidate, hj', hq']
    | cons front rest =>
      have hq' : lib.playback.queue = front :: rest := hq
      simp [Playback.bound, Playback.lookAhead, Playback.candidate, hj', hq',
        bLoadHostData_desired]

theorem setHijackedProtocol_playback :
    (lib.setHijackedProtocol files heap).playback = lib.playback.takeBound files heap := by
  unfold setHijackedProtocol Playback.takeBound
  cases hj : lib.hostDataOfHijackedProtocol with
  | some r =>
    have hj' : lib.playback.hijacked = some r := hj
    simp only [hj']
  | none =>
    have hj' : lib.playback.hijacked = none := hj
    cases hq : lib.stimuliQueue with
    | nil =>
      have hq' : lib.playback.queue = [] := hq
      simp only [hj', hq']
    | cons front rest =>
      have hq' : lib.playback.queue = front :: rest := hq
      simp only [hj', hq', bLoadHostData_playback]
      rfl

theorem playInfinitely_playback : (lib.playInfinitely heap).1 = lib.playback.silence heap ∧
    (lib.playInfinitely heap).2.playback = lib.playback := by
  unfold playInfinitely Playback.silence
  cases hj : lib.hostDataOfHijackedProtocol with
  | none =>
    have hj' : lib.playback.hijacked = none := hj
    simp only [hj', and_self]
  | some r =>
    have hj' : lib.playback.hijacked = some r := hj
    simp only [hj']
    split <;> exact ⟨rfl, rfl⟩

def moving (movementQueue : List Ref) (answers : Answers) : Bool :=
  !movementQueue.isEmpty || !answers.pendingReached

theorem continueHijackedProtocol_playback (movementQueue : List Ref) (answers : Answers) :
    ((lib.continueHijackedProtocol heap movementQueue answers).1,
        (lib.continueHijackedProtocol heap movementQueue answers).2.playback) =
      lib.playback.continueBound heap (moving movementQueue answers) answers.finishedReached := by
  have hplay (cs : List Call) :
      (((lib.log cs).playInfinitely heap).1, ((lib.log cs).playInfinitely heap).2.playback) =
        (lib.playback.silence heap, lib.playback) := by
    rw [((lib.log cs).playInfinitely_playback heap).2,
      ((lib.log cs).playInfinitely_playback heap).1,
      log_playback]
  unfold continueHijackedProtocol Playback.continueBound moving
  cases movementQueue with
  | cons r rest =>
    have h := lib.playInfinitely_playback heap
    simp [h.1, h.2]
  | nil =>
    cases answers.pendingReached with
    | false => simpa using hplay [.reachedTarget false]
    | true => cases answers.finishedReached <;> simp

/-- **The library follows `Playback.tick`.** -/
theorem processStimuli_playback (movementQueue : List Ref) (answers : Answers) :
    ((lib.processStimuli files heap movementQueue answers).1,
        (lib.processStimuli files heap movementQueue answers).2.playback) =
      lib.playback.tick files heap (moving movementQueue answers) answers.finishedReached := by
  obtain ⟨hfst, hsnd⟩ := lib.updateFSystem.bIsStimulusToPlay_eq files heap
  rw [updateFSystem_playback] at hfst hsnd
  simp only [processStimuli, bAdaptStimulusParametersDueToHijacking, Playback.tick, hfst, ← hsnd]
  generalize (lib.updateFSystem.bIsStimulusToPlayAsLongAsMovementsPending files heap).2 = next
  cases hb : lib.playback.bound heap with
  | true =>
    simp only [if_true]
    rw [continueHijackedProtocol_playback, setHijackedProtocol_playback]
  | false =>
    simp only [Bool.false_eq_true, if_false]
    have hfraction : next.bGetIsThereAFractionLeftToPlay = true ↔
        0.0001 < next.playback.fraction := decide_eq_true_iff
    rw [Playback.playNext]
    by_cases hl : 0.0001 < next.playback.fraction
    · rw [if_pos hl, if_pos (hfraction.mpr hl), playStimuli_playback]
    · rw [if_neg hl, if_neg (fun h => hl (hfraction.mp h))]
      cases hq : next.stimuliQueue with
      | nil =>
        have hq' : next.playback.queue = [] := hq
        rw [hq', if_neg (by simp)]
      | cons front rest =>
        have hq' : next.playback.queue = front :: rest := hq
        rw [hq', if_pos (by simp), vPlayStimulusIfToBeTriggered_playback _ _ _ hq]

end StimuliLibrary

end Orbiter.Stimuli
