import Orbiter.Stimuli.Events
import Orbiter.Machine.Run

/-!
# Sounds created and released

Every load of a known stimulus creates a sound and puts it into `audio`; only the stop
releases the one in `audio`, and with the system all others.

* `sounds`: the machine that counts the sounds in a log of calls.
* `Makes`: the library goes on within its system and creates some sounds.
* `Held`: a library whose `audio` is the sound created last, and tells whether one is left
  that is not released.
* `StimuliStep.sounding`: **how many sounds each of the six ways creates, and which of them
  stop.**
-/

namespace Orbiter.Stimuli

open Cxx Toolbox

/-- The sound created last, and the sounds that have not been released. -/
structure Sounds where
  audio : Option Sound
  unreleased : List Sound

/-- Releasing a system releases the sounds created through it. -/
def Sounds.step (s : Sounds) : Call → Sounds
  | .createSound sound => ⟨some sound, s.unreleased ++ [sound]⟩
  | .soundRelease (some sound) => { s with unreleased := s.unreleased.filter (· ≠ sound) }
  | .systemRelease system => { s with unreleased := s.unreleased.filter (·.system ≠ system) }
  | _ => s

def sounds : Machine Sounds Call where
  init := ⟨none, []⟩
  step := Sounds.step

/-- The call overwrites no sound that has not been released. -/
def KeepsSound (s : Sounds) : Call → Prop
  | .createSound _ => ∀ sound ∈ s.unreleased, s.audio ≠ some sound
  | _ => True

instance (s : Sounds) (c : Call) : Decidable (KeepsSound s c) :=
  decidable_of_iff ((c matches .createSound _) → ∀ sound ∈ s.unreleased, s.audio ≠ some sound) (by
    cases c <;> simp [KeepsSound])

def Call.isSound : Call → Bool
  | .createSound _ => true
  | .soundRelease _ => true
  | .systemRelease _ => true
  | _ => false

theorem sounds_step_of_not_isSound {c : Call} (h : c.isSound = false) (s : Sounds) :
    sounds.step s c = s ∧ KeepsSound s c := by
  cases c <;> first | exact ⟨rfl, trivial⟩ | exact absurd h (by simp [Call.isSound])

theorem sounds_runFrom_filter (cs : List Call) (s : Sounds) :
    sounds.runFrom s cs = sounds.runFrom s (cs.filter Call.isSound) ∧
      (sounds.AlwaysFrom KeepsSound s cs ↔
        sounds.AlwaysFrom KeepsSound s (cs.filter Call.isSound)) := by
  induction cs generalizing s with
  | nil => exact ⟨rfl, Iff.rfl⟩
  | cons c cs ih =>
    obtain ⟨hrun, halways⟩ := ih (sounds.step s c)
    rw [Machine.runFrom_cons, hrun, Machine.alwaysFrom_cons, halways]
    cases hc : c.isSound with
    | true =>
      rw [List.filter_cons_of_pos hc, Machine.runFrom_cons, Machine.alwaysFrom_cons]
      exact ⟨rfl, Iff.rfl⟩
    | false =>
      obtain ⟨hstep, hkeeps⟩ := sounds_step_of_not_isSound hc s
      rw [List.filter_cons_of_neg (by simp [hc]), hstep]
      exact ⟨rfl, and_iff_right hkeeps⟩

theorem sounds_runFrom_create (xs : List Sound) (s : Sounds) :
    sounds.runFrom s (xs.map .createSound) =
      ⟨xs.getLast?.or s.audio, s.unreleased ++ xs⟩ := by
  induction xs using List.reverseRecOn with
  | nil => rw [List.append_nil]; rfl
  | append_singleton xs x ih =>
    rw [List.map_append, Machine.runFrom_append, ih, List.getLast?_concat, ← List.append_assoc]
    rfl

/-- **Sounds are created one by one only if there is one, and none before it.** -/
theorem keepsSound_create_iff (xs : List Sound) (s : Sounds) :
    sounds.AlwaysFrom KeepsSound s (xs.map .createSound) ↔
      xs.length ≤ 1 ∧ (xs ≠ [] → ∀ sound ∈ s.unreleased, s.audio ≠ some sound) := by
  match xs with
  | [] => simp
  | [x] => simp [KeepsSound]
  | x :: y :: xs =>
    have hoverwrites : ¬ KeepsSound (sounds.step s (.createSound x)) (.createSound y) := by
      intro h
      exact h x (List.mem_append_right _ List.mem_cons_self) rfl
    refine iff_of_false ?_ (by simp)
    rw [List.map_cons, List.map_cons, Machine.alwaysFrom_cons, Machine.alwaysFrom_cons]
    exact fun h => hoverwrites h.2.1

namespace StimuliLibrary

variable (files : Files) (heap : Store HostData) (lib : StimuliLibrary)

def sounds : Sounds := Stimuli.sounds.run lib.calls

/-- `audio` holds a sound of the system stored now. -/
def HoldsSound : Prop := ∃ sound, lib.audio = some sound ∧ sound.system = lib.fsystem

instance : Decidable lib.HoldsSound :=
  decidable_of_iff (lib.audio.any fun sound => sound.system = lib.fsystem) (by
    cases h : lib.audio <;> simp [HoldsSound, h])

/-- The library went on within its system and created the sounds `xs`; its channel is the
one before or a new one. -/
structure Makes (lib lib' : StimuliLibrary) (xs : List Sound) : Prop where
  calls : ∃ cs, lib'.calls = lib.calls ++ cs ∧ cs.filter Call.isSound = xs.map .createSound
  fsystem : lib'.fsystem = lib.fsystem
  audio : lib'.audio = xs.getLast?.or lib.audio
  system : ∀ x ∈ xs, x.system = lib.fsystem
  nextId : lib.nextId ≤ lib'.nextId
  channel : ∀ x, lib'.channel = some x →
    lib.channel = some x ∨ (x.system = lib.fsystem ∧ x.id < lib'.nextId)

variable {lib}

theorem Makes.trans {lib' lib'' : StimuliLibrary} {xs ys : List Sound} (h : lib.Makes lib' xs)
    (h' : lib'.Makes lib'' ys) : lib.Makes lib'' (xs ++ ys) where
  calls := by
    obtain ⟨cs, hcalls, hcs⟩ := h.calls
    obtain ⟨cs', hcalls', hcs'⟩ := h'.calls
    refine ⟨cs ++ cs', by rw [hcalls', hcalls, List.append_assoc], ?_⟩
    rw [List.filter_append, hcs, hcs', List.map_append]
  fsystem := h'.fsystem.trans h.fsystem
  audio := by
    rw [h'.audio, h.audio, List.getLast?_append, Option.or_assoc]
  system := by
    intro x hx
    rcases List.mem_append.mp hx with hx | hx
    · exact h.system x hx
    · exact (h'.system x hx).trans h.fsystem
  nextId := h.nextId.trans h'.nextId
  channel := by
    intro x hx
    rcases h'.channel x hx with hx | ⟨hsystem, hlt⟩
    · refine (h.channel x hx).imp_right fun hnew => ⟨hnew.1, ?_⟩
      exact lt_of_lt_of_le hnew.2 h'.nextId
    · exact Or.inr ⟨hsystem.trans h.fsystem, hlt⟩

theorem Makes.sounds_eq {lib' : StimuliLibrary} {xs : List Sound} (h : lib.Makes lib' xs) :
    lib'.sounds = ⟨xs.getLast?.or lib.sounds.audio, lib.sounds.unreleased ++ xs⟩ := by
  obtain ⟨cs, hcalls, hcs⟩ := h.calls
  rw [sounds, hcalls, Machine.run_append, (sounds_runFrom_filter cs _).1, hcs,
    sounds_runFrom_create]
  rfl

theorem Makes.keepsSound_iff {lib' : StimuliLibrary} {xs : List Sound} (h : lib.Makes lib' xs) :
    Stimuli.sounds.Always KeepsSound lib'.calls ↔
      Stimuli.sounds.Always KeepsSound lib.calls ∧ xs.length ≤ 1 ∧
        (xs ≠ [] → ∀ sound ∈ lib.sounds.unreleased, lib.sounds.audio ≠ some sound) := by
  obtain ⟨cs, hcalls, hcs⟩ := h.calls
  rw [hcalls, Machine.always_append, (sounds_runFrom_filter cs _).2, hcs, keepsSound_create_iff]
  rfl

variable (lib)

theorem makes_nil {lib' : StimuliLibrary} {cs : List Call} (hcalls : lib'.calls = lib.calls ++ cs)
    (hcs : ∀ c ∈ cs, c.isSound = false) (hsystem : lib'.fsystem = lib.fsystem)
    (haudio : lib'.audio = lib.audio) (hnext : lib'.nextId = lib.nextId)
    (hchannel : lib'.channel = lib.channel) : lib.Makes lib' [] := by
  refine ⟨⟨cs, hcalls, ?_⟩, hsystem, haudio, by simp, hnext.ge, ?_⟩
  · exact List.filter_eq_nil_iff.mpr fun c hc => by simp [hcs c hc]
  · intro x hx
    exact Or.inl (hchannel.symm.trans hx)

theorem makes_refl : lib.Makes lib [] :=
  lib.makes_nil (List.append_nil _).symm (by simp) rfl rfl rfl rfl

theorem makes_log {cs : List Call} (hcs : ∀ c ∈ cs, c.isSound = false) :
    lib.Makes (lib.log cs) [] := lib.makes_nil rfl hcs rfl rfl rfl rfl

theorem makes_updateFSystem : lib.Makes lib.updateFSystem [] :=
  lib.makes_log (by simp [Call.isSound])

theorem makes_start {lib' : StimuliLibrary} {started : Option Handle} {c : Call}
    (hstarted : started = none ∨ started = some ⟨lib.fsystem, lib.nextId⟩)
    (hcalls : lib'.calls = lib.calls ++ [c]) (hc : c.isSound = false)
    (hsystem : lib'.fsystem = lib.fsystem) (haudio : lib'.audio = lib.audio)
    (hnext : lib'.nextId = lib.nextId + 1) (hchannel : lib'.channel = started.or lib.channel) :
    lib.Makes lib' [] := by
  refine ⟨⟨[c], hcalls, ?_⟩, hsystem, haudio, by simp, by omega, ?_⟩
  · rw [List.filter_cons_of_neg (by simp [hc])]
    rfl
  · intro x hx
    rcases hstarted with rfl | rfl
    · exact Or.inl (hchannel.symm.trans hx)
    · obtain rfl := Option.some.inj (hchannel.symm.trans hx)
      exact Or.inr ⟨rfl, by rw [hnext]; exact Nat.lt_succ_self _⟩

theorem makes_playSound : lib.Makes lib.playSound [] := by
  have hstarted : lib.startedSound = none ∨ lib.startedSound = some ⟨lib.fsystem, lib.nextId⟩ := by
    rw [startedSound]
    split_ifs <;> simp
  exact lib.makes_start hstarted rfl rfl rfl rfl rfl rfl

theorem makes_playDSP : lib.Makes lib.playDSP [] := by
  have hstarted : lib.startedDSP = none ∨ lib.startedDSP = some ⟨lib.fsystem, lib.nextId⟩ := by
    rw [startedDSP]
    split_ifs <;> simp
  exact lib.makes_start hstarted rfl rfl rfl rfl rfl rfl

theorem makes_startOscillator (nr : Int) : lib.Makes (lib.startOscillator nr) [] := by
  rw [startOscillator]
  split_ifs
  · exact (lib.makes_log (by simp [Call.isSound])).trans (makes_playDSP _)
  · exact lib.makes_refl

theorem makes_createSound (path : String) :
    lib.Makes ({ lib with pathToCurrentAudioFile := path }.createSound path)
      [⟨⟨lib.fsystem, lib.nextId⟩, path⟩] :=
  ⟨⟨_, rfl, rfl⟩, rfl, rfl, by simp, Nat.le_succ _, fun _ => Or.inl⟩

theorem makes_getLength : lib.Makes (lib.getLength files) [] :=
  lib.makes_nil rfl (by simp [Call.isSound]) rfl rfl rfl rfl

theorem makes_getMasterChannelGroup : lib.Makes lib.getMasterChannelGroup [] :=
  lib.makes_nil rfl (by simp [Call.isSound]) rfl rfl rfl rfl

theorem makes_loadAudio (path : String) : ∃ x, lib.Makes (lib.loadAudio files path) [x] := by
  have hopened := (lib.makes_createSound path).trans (makes_getLength files _)
  have hmoved : ∀ lib : StimuliLibrary,
      lib.Makes (lib.log [.setChannelGroup lib.channel lib.channelgroup]) [] :=
    fun lib => lib.makes_log (by simp [Call.isSound])
  exact ⟨_, (hopened.trans (hmoved _)).trans (makes_playSound _)⟩

/-- How many sounds a load creates: one when it knows the stimulus. -/
def soundsLoaded (d : HostData) : Nat := if (pathToAudio d.stimulusNr).isSome then 1 else 0

/-- **A load creates a sound when it knows the stimulus.** -/
theorem makes_bLoadHostData (d : HostData) :
    ∃ xs, lib.Makes (lib.bLoadHostData files d).2 xs ∧ xs.length = soundsLoaded d := by
  have hbegin : lib.Makes (lib.beginLoad d.stimulusNr d.loudness d.stimulusDuration) [] :=
    lib.makes_nil rfl (by simp [Call.isSound]) rfl rfl rfl rfl
  have hstart := hbegin.trans (makes_startOscillator _ d.stimulusNr)
  have hvolume : ∀ lib : StimuliLibrary,
      lib.Makes (lib.log [.setVolume lib.channel d.loudness]) [] :=
    fun lib => lib.makes_log (by simp [Call.isSound])
  rw [bLoadHostData, bLoadStimuli, switchStimulus, soundsLoaded]
  cases pathToAudio d.stimulusNr with
  | none => exact ⟨_, hstart.trans (hvolume _), rfl⟩
  | some path =>
    obtain ⟨x, hloaded⟩ := makes_loadAudio files
      ((lib.beginLoad d.stimulusNr d.loudness d.stimulusDuration).startOscillator d.stimulusNr) path
    exact ⟨_, (hstart.trans hloaded).trans (hvolume _), rfl⟩

theorem makes_playCut (clockDSP : Nat) : lib.Makes (lib.playCut files clockDSP) [] := by
  have hlength : lib.Makes (lib.log [.getLength lib.audio]) [] :=
    lib.makes_log (by simp [Call.isSound])
  have hclock : ∀ lib : StimuliLibrary, lib.Makes
      (lib.log [.getDSPClock lib.channelgroup, .getDSPBufferSize lib.fsystem]) [] :=
    fun lib => lib.makes_log (by simp [Call.isSound])
  have hstarted := (hlength.trans (makes_getMasterChannelGroup _)).trans
    ((hclock _).trans (makes_playSound _))
  exact hstarted.trans (makes_nil _ rfl (by simp [Call.isSound]) rfl rfl rfl rfl)

theorem makes_playStimuli (h : lib.audioFileLengthMs ≠ 0) (clockDSP : Nat) :
    lib.Makes (lib.playStimuli files clockDSP) [] := by
  have hsilent : ∀ lib : StimuliLibrary, lib.Makes (lib.log [.setPaused lib.channel false]) [] :=
    fun lib => lib.makes_log (by simp [Call.isSound])
  have henter : lib.Makes (lib.log [.playStimuli lib.audio lib.audioFileLengthMs
      lib.uiDesiredDurationMs lib.dFractionOfAudioFileLeftToPlay]) [] :=
    lib.makes_log (by simp [Call.isSound])
  have hcases : ∀ lib : StimuliLibrary, lib.audioFileLengthMs ≠ 0 →
      lib.Makes (lib.playCases files clockDSP) [] := by
    intro lib h
    rw [playCases, if_neg h]
    split_ifs
    · exact lib.makes_nil rfl (by simp [Call.isSound]) rfl rfl rfl rfl
    · exact lib.makes_playCut files clockDSP
    · exact hsilent lib
  exact (henter.trans (hcases (lib.log _) h)).trans (hsilent _)

theorem makes_popFront (front : Ref) (rest : List Ref) :
    lib.Makes (lib.popFront front rest) [] :=
  lib.makes_nil rfl (by simp [Call.isSound]) rfl rfl rfl rfl

theorem makes_takeFront (front : Ref) (rest : List Ref) :
    lib.Makes (lib.takeFront front rest) [] :=
  lib.makes_nil rfl (by simp [Call.isSound]) rfl rfl rfl rfl

theorem makes_look (r : Ref) :
    ∃ xs, lib.Makes (lib.look files heap r) xs ∧ xs.length = soundsLoaded (heap.deref r) := by
  obtain ⟨xs, hload, hlength⟩ := makes_bLoadHostData files lib.updateFSystem (heap.deref r)
  exact ⟨xs, lib.makes_updateFSystem.trans hload, hlength⟩

/-- **The look-ahead and the load behind it create two sounds**, with the front of the queue
taken or popped in between. -/
theorem makes_lookAndLoad {front : Ref} {next : StimuliLibrary}
    (known : (pathToAudio (heap.deref front).stimulusNr).isSome)
    (hnext : (lib.look files heap front).Makes next []) :
    ∃ xs, lib.Makes (next.bLoadHostData files (heap.deref front)).2 xs ∧ xs.length = 2 := by
  obtain ⟨xs, hlook, hxs⟩ := makes_look files heap lib front
  obtain ⟨ys, hload, hys⟩ := makes_bLoadHostData files next (heap.deref front)
  refine ⟨_, (hlook.trans hnext).trans hload, ?_⟩
  rw [soundsLoaded, if_pos known] at hxs hys
  rw [List.append_nil, List.length_append, hxs, hys]

theorem makes_playInfinitely : lib.Makes (lib.playInfinitely heap).2 [] := by
  rw [playInfinitely]
  split
  · split
    · exact lib.makes_log (by simp [Call.isSound])
    · exact lib.makes_refl
  · exact lib.makes_refl

/-! ### The sounds that are held -/

/-- `audio` holds the sound created last, and no sound is left that is not released unless
`audio` holds one. -/
structure Held : Prop where
  audio : lib.sounds.audio = lib.audio
  fsystem : ∀ x ∈ lib.sounds.unreleased, x.system = lib.fsystem
  system : ∀ x, lib.audio = some x → x.system ≤ lib.fsystem
  held : ∀ x, lib.audio = some x → x.system = lib.fsystem → x ∈ lib.sounds.unreleased
  holdsSound : lib.sounds.unreleased ≠ [] → lib.HoldsSound

variable {lib}

/-- **A library that holds the sound created last goes on to do so.** -/
theorem Held.makes {lib' : StimuliLibrary} {xs : List Sound} (h : lib.Held)
    (hmakes : lib.Makes lib' xs) : lib'.Held := by
  have hsounds := hmakes.sounds_eq
  have hlast : ∀ x, lib'.audio = some x → x ∈ xs ∨ lib.audio = some x := by
    intro x hx
    rw [hmakes.audio, Option.or_eq_some_iff] at hx
    exact hx.imp List.mem_of_getLast? And.right
  refine ⟨?_, ?_, ?_, ?_, ?_⟩
  · rw [hsounds, hmakes.audio, h.audio]
  · intro x hx
    rw [hsounds] at hx
    rw [hmakes.fsystem]
    exact (List.mem_append.mp hx).elim (h.fsystem x) (hmakes.system x)
  · intro x hx
    rw [hmakes.fsystem]
    exact (hlast x hx).elim (fun hx => Nat.le_of_eq (hmakes.system x hx)) (h.system x)
  · intro x hx hsystem
    rw [hmakes.fsystem] at hsystem
    rw [hsounds]
    refine List.mem_append.mpr ((hlast x hx).symm.imp (fun hx => ?_) id)
    exact h.held x hx hsystem
  · intro hne
    rw [hsounds] at hne
    rcases List.eq_nil_or_concat xs with rfl | ⟨ys, y, rfl⟩
    · obtain ⟨x, hx, hsystem⟩ := h.holdsSound (by simpa using hne)
      exact ⟨x, hmakes.audio.trans hx, hsystem.trans hmakes.fsystem.symm⟩
    · refine ⟨y, ?_, ?_⟩
      · rw [hmakes.audio, List.concat_eq_append, List.getLast?_concat, Option.some_or]
      · rw [hmakes.fsystem]
        exact hmakes.system y (by simp)

/-- Whether a sound is left that is not released shows in `audio`. -/
theorem Held.holdsSound_iff (h : lib.Held) : lib.HoldsSound ↔ lib.sounds.unreleased ≠ [] := by
  constructor
  · rintro ⟨x, hx, hsystem⟩
    exact List.ne_nil_of_mem (h.held x hx hsystem)
  · exact h.holdsSound

/-- A sound is overwritten when one is created while `audio` holds one. -/
theorem Held.overwrites_iff (h : lib.Held) :
    (∀ x ∈ lib.sounds.unreleased, lib.sounds.audio ≠ some x) ↔ ¬ lib.HoldsSound := by
  constructor
  · rintro hfree ⟨x, hx, hsystem⟩
    exact hfree x (h.held x hx hsystem) (h.audio.trans hx)
  · intro hnone x hx
    exact absurd (h.holdsSound (List.ne_nil_of_mem hx)) hnone

theorem sounds_stopStimuli (lib : StimuliLibrary) :
    lib.stopStimuli.sounds =
        (lib.sounds.step (.soundRelease lib.audio)).step (.systemRelease lib.fsystem) ∧
      (Stimuli.sounds.Always KeepsSound lib.stopStimuli.calls ↔
        Stimuli.sounds.Always KeepsSound lib.calls) := by
  constructor
  · rw [StimuliLibrary.sounds, StimuliLibrary.stopStimuli, Machine.run_append]
    rfl
  · rw [StimuliLibrary.stopStimuli, Machine.always_append]
    exact and_iff_left (by simp [KeepsSound])

/-- **A stop releases every sound.** -/
theorem Held.stopStimuli (h : lib.Held) :
    lib.stopStimuli.Held ∧ lib.stopStimuli.sounds.unreleased = [] := by
  have hsounds := lib.sounds_stopStimuli.1
  have hnil : lib.stopStimuli.sounds.unreleased = [] := by
    rw [hsounds]
    refine List.filter_eq_nil_iff.mpr fun x hx => ?_
    have hmem : x ∈ lib.sounds.unreleased := by
      cases haudio : lib.audio with
      | none => rwa [haudio] at hx
      | some y =>
        rw [haudio] at hx
        exact List.mem_of_mem_filter hx
    simp [h.fsystem x hmem]
  have hlast : lib.stopStimuli.sounds.audio = lib.audio := by
    rw [hsounds]
    cases haudio : lib.audio <;> exact h.audio.trans haudio
  have hold : ∀ x, lib.audio = some x → x.system < lib.fsystem + 1 :=
    fun x hx => Nat.lt_succ_of_le (h.system x hx)
  refine ⟨⟨hlast, ?_, ?_, ?_, ?_⟩, hnil⟩
  · rw [hnil]
    simp
  · exact fun x hx => Nat.le_of_lt (hold x hx)
  · exact fun x hx hsystem => absurd hsystem (Nat.ne_of_lt (hold x hx))
  · exact fun hne => absurd hnil hne

theorem held_init : init.Held := by
  have hnone : init.audio = none := rfl
  have hnil : init.sounds.unreleased = [] := rfl
  refine ⟨rfl, ?_, ?_, ?_, fun hne => absurd hnil hne⟩
  · rw [hnil]
    simp
  · rw [hnone]
    simp
  · rw [hnone]
    simp

variable (lib)

/-! ### The six ways -/

/-- How many sounds a tick creates: one for the movement-bound stimulus that goes on, one
for the look at the front of the queue, and one more when that is taken or played. -/
def soundsCreated : Nat :=
  match lib.hostDataOfHijackedProtocol, lib.stimuliQueue with
  | some hijacked, _ => soundsLoaded (heap.deref hijacked)
  | none, [] => 0
  | none, front :: _ =>
    if (heap.deref front).stimulusDuration = iPlayStimulusAsLongAsMovementsPending ∨
        (heap.deref front).toBeTriggerd = true then 2 * soundsLoaded (heap.deref front)
    else soundsLoaded (heap.deref front)

/-- The tick ends in the stop: a movement-bound stimulus whose movements are over, or a file
without a length. -/
def StopsSounding (moving finished : Bool) : Prop :=
  match lib.hostDataOfHijackedProtocol, lib.stimuliQueue with
  | some _, _ => moving = false ∧ finished = true
  | none, [] => False
  | none, front :: _ =>
    if (heap.deref front).stimulusDuration = iPlayStimulusAsLongAsMovementsPending then
      moving = false ∧ finished = true
    else (heap.deref front).toBeTriggerd = true ∧
      (pathToAudio (heap.deref front).stimulusNr).any (fun path => files.length path == 0) = true

instance (moving finished : Bool) : Decidable (lib.StopsSounding files heap moving finished) := by
  unfold StopsSounding
  split <;> infer_instance

/-- The library creates `n` sounds, and then stops if `stops` says so. -/
def Sounding (lib lib' : StimuliLibrary) (n : Nat) (stops : Prop) : Prop :=
  ∃ last xs, lib.Makes last xs ∧ xs.length = n ∧
    ((stops ∧ last.stopStimuli.Makes lib' []) ∨ (¬ stops ∧ last = lib'))

theorem continueHijackedProtocol_sounding (movementQueue : List Ref) (answers : Answers) :
    lib.Sounding (lib.continueHijackedProtocol heap movementQueue answers).2 0
      (moving movementQueue answers = false ∧ answers.finishedReached = true) := by
  have hasked : ∀ (lib : StimuliLibrary) (answer : Bool),
      lib.Makes (lib.log [.reachedTarget answer]) [] :=
    fun lib answer => lib.makes_log (by simp [Call.isSound])
  rw [continueHijackedProtocol, moving]
  split_ifs with hqueue hpending hfinished
  · exact ⟨_, _, makes_playInfinitely heap lib, rfl, Or.inr ⟨by simp [hqueue], rfl⟩⟩
  · exact ⟨_, _, (hasked lib _).trans (makes_playInfinitely heap _), rfl,
      Or.inr ⟨by simp [hpending], rfl⟩⟩
  · have hclear : ∀ lib : StimuliLibrary,
        lib.Makes lib.vSetHijackedProtocolIsCompletelyProcessed [] :=
      fun lib => lib.makes_nil rfl (by simp [Call.isSound]) rfl rfl rfl rfl
    refine ⟨_, _, ((hasked lib _).trans (hasked _ _)).trans (hclear _), rfl,
      Or.inl ⟨?_, makes_refl _⟩⟩
    simp_all
  · exact ⟨_, _, (hasked lib _).trans (hasked _ _), rfl, Or.inr ⟨by simp [hfinished], rfl⟩⟩

theorem playStimuli_sounding (clockDSP : Nat) :
    lib.Sounding (lib.playStimuli files clockDSP) 0 (lib.audioFileLengthMs = 0) := by
  by_cases h : lib.audioFileLengthMs = 0
  · have henter : lib.Makes (lib.log [.playStimuli lib.audio lib.audioFileLengthMs
        lib.uiDesiredDurationMs lib.dFractionOfAudioFileLeftToPlay]) [] :=
      lib.makes_log (by simp [Call.isSound])
    refine ⟨_, _, henter, rfl, Or.inl ⟨h, ?_⟩⟩
    rw [playStimuli, playCases, if_pos (show (lib.log _).audioFileLengthMs = 0 from h)]
    exact makes_log _ (by simp [Call.isSound])
  · exact ⟨_, _, lib.makes_playStimuli files h clockDSP, rfl, Or.inr ⟨h, rfl⟩⟩

variable {files heap lib}

theorem Makes.sounding {lib' lib'' : StimuliLibrary} {xs : List Sound} {n : Nat} {stops : Prop}
    (h : lib.Makes lib' xs) (h' : lib'.Sounding lib'' n stops) :
    lib.Sounding lib'' (xs.length + n) stops := by
  obtain ⟨last, ys, hmakes, hlength, hrest⟩ := h'
  exact ⟨last, xs ++ ys, h.trans hmakes, by rw [List.length_append, hlength], hrest⟩

/-- **How many sounds each of the six ways creates, and which of them stop.** -/
theorem StimuliStep.sounding {movementQueue : List Ref} {answers : Answers} {cs : List Call}
    {out : Store HostData × StimuliLibrary} (howes : lib.playback.Owes)
    (h : lib.StimuliStep files heap movementQueue answers cs out) :
    lib.Sounding out.2 (lib.soundsCreated heap)
      (lib.StopsSounding files heap (moving movementQueue answers) answers.finishedReached) := by
  cases h with
  | hijacked r hijacked bound known =>
    obtain ⟨xs, hlook, hxs⟩ := makes_look files heap lib r
    have hsounding := hlook.sounding
      (continueHijackedProtocol_sounding heap (lib.look files heap r) movementQueue answers)
    simpa only [soundsCreated, StopsSounding, hijacked, hxs, Nat.add_zero] using hsounding
  | take front rest free queue bound known =>
    obtain ⟨xs, htaken, hxs⟩ :
        ∃ xs, lib.Makes (lib.taken files heap front rest) xs ∧ xs.length = 2 :=
      makes_lookAndLoad files heap lib known (makes_takeFront _ front rest)
    have hsounding := htaken.sounding
      (continueHijackedProtocol_sounding heap _ movementQueue answers)
    simpa only [soundsCreated, StopsSounding, free, queue, bound, true_or, if_true, soundsLoaded,
      known, hxs] using hsounding
  | remainder free queue owed =>
    have hlength : lib.audioFileLengthMs ≠ 0 :=
      Nat.ne_zero_of_lt (howes.lt_length (fraction_ne_zero owed))
    refine ⟨_, [], lib.makes_updateFSystem.trans
      (lib.updateFSystem.makes_playStimuli files hlength answers.clockDSP), ?_, Or.inr ⟨?_, rfl⟩⟩
    · rw [soundsCreated, free, queue, List.length_nil]
    · rw [StopsSounding, free, queue]
      exact not_false
  | idle free queue =>
    refine ⟨_, [], lib.makes_updateFSystem, ?_, Or.inr ⟨?_, rfl⟩⟩
    · rw [soundsCreated, free, queue, List.length_nil]
    · rw [StopsSounding, free, queue]
      exact not_false
  | play front rest free queue unbound triggered known =>
    obtain ⟨xs, hloaded, hxs⟩ :
        ∃ xs, lib.Makes (lib.loadedFront files heap front rest) xs ∧ xs.length = 2 :=
      makes_lookAndLoad files heap lib known (makes_popFront _ front rest)
    have hsounding := hloaded.sounding (playStimuli_sounding files _ answers.clockDSP)
    obtain ⟨path, hpath⟩ := Option.isSome_iff_exists.mp known
    rw [loadedFront_audioFileLengthMs files heap lib hpath] at hsounding
    simpa [soundsCreated, StopsSounding, free, queue, unbound, triggered, soundsLoaded, hpath,
      hxs] using hsounding
  | pop front rest free queue unbound untriggered =>
    obtain ⟨xs, hlook, hxs⟩ := makes_look files heap lib front
    refine ⟨_, _, hlook.trans (makes_popFront _ front rest), ?_, Or.inr ⟨?_, rfl⟩⟩
    · simp [soundsCreated, free, queue, unbound, untriggered, hxs]
    · simp [StopsSounding, free, queue, unbound, untriggered]

/-! ### What a tick leaves -/

theorem Sounding.exists_createSound {lib' : StimuliLibrary} {n : Nat} {stops : Prop}
    (h : lib.Sounding lib' n stops) (hn : n ≠ 0) :
    ∃ cs x, lib.calls ++ cs <+: lib'.calls ∧ .createSound x ∈ cs := by
  obtain ⟨last, xs, hmakes, rfl, hrest⟩ := h
  obtain ⟨cs, hcalls, hcs⟩ := hmakes.calls
  obtain ⟨x, hx⟩ := List.exists_mem_of_length_pos (Nat.pos_of_ne_zero hn)
  refine ⟨cs, x, ?_, ?_⟩
  · rw [← hcalls]
    rcases hrest with ⟨-, htail⟩ | ⟨-, rfl⟩
    · obtain ⟨cs', hcalls', -⟩ := htail.calls
      exact (List.prefix_append _ _).trans ⟨cs', hcalls'.symm⟩
    · exact List.prefix_rfl
  · apply List.mem_of_mem_filter (p := Call.isSound)
    rw [hcs]
    exact List.mem_map_of_mem hx

theorem Held.sounding {lib' : StimuliLibrary} {n : Nat} {stops : Prop} (h : lib.Held)
    (hsounding : lib.Sounding lib' n stops) : lib'.Held := by
  obtain ⟨last, xs, hmakes, -, ⟨-, htail⟩ | ⟨-, rfl⟩⟩ := hsounding
  · exact (h.makes hmakes).stopStimuli.1.makes htail
  · exact h.makes hmakes

/-- **How many sounds are left that are not released**: none behind a stop. -/
theorem Held.length_unreleased {lib' : StimuliLibrary} {n : Nat} {stops : Prop} [Decidable stops]
    (h : lib.Held) (hsounding : lib.Sounding lib' n stops) :
    lib'.sounds.unreleased.length = if stops then 0 else lib.sounds.unreleased.length + n := by
  obtain ⟨last, xs, hmakes, hlength, ⟨hstops, htail⟩ | ⟨hstops, rfl⟩⟩ := hsounding
  · rw [if_pos hstops, htail.sounds_eq, List.append_nil, (h.makes hmakes).stopStimuli.2,
      List.length_nil]
  · rw [if_neg hstops, hmakes.sounds_eq, List.length_append, hlength]

/-- **No sound is overwritten exactly when at most one is created, and that only while
`audio` holds none.** -/
theorem Held.keepsSound_iff {lib' : StimuliLibrary} {n : Nat} {stops : Prop} (h : lib.Held)
    (hsounding : lib.Sounding lib' n stops) :
    Stimuli.sounds.Always KeepsSound lib'.calls ↔
      Stimuli.sounds.Always KeepsSound lib.calls ∧ n ≤ 1 ∧ (n ≠ 0 → ¬ lib.HoldsSound) := by
  obtain ⟨last, xs, hmakes, rfl, hrest⟩ := hsounding
  have hlast : Stimuli.sounds.Always KeepsSound lib'.calls ↔
      Stimuli.sounds.Always KeepsSound last.calls := by
    rcases hrest with ⟨-, htail⟩ | ⟨-, rfl⟩
    · rw [htail.keepsSound_iff, last.sounds_stopStimuli.2]
      simp
    · exact Iff.rfl
  rw [hlast, hmakes.keepsSound_iff, h.overwrites_iff, ne_eq xs.length, List.length_eq_zero_iff]

end StimuliLibrary

end Orbiter.Stimuli
