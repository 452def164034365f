import Orbiter.Stimuli.Events

/-!
# What the log can hold

An infinite loop is started by three calls to FMOD, and by nothing else.
`bIsStimulusToPlayAsLongAsMovementsPending` ends without a return statement when it finds a
movement-bound stimulus that it cannot load, but a way of a tick that goes on with a
movement-bound stimulus knows its number.

* `Orderly`: a log in which an infinite loop is unpaused exactly where a movement-bound
  stimulus is started, and which has no end of the check without a return.
* `StimuliStep.orderly`: **every way of a tick keeps its log orderly.**
* `pathToAudio_isSome_iff`: the numbers that can be loaded.
-/

namespace Orbiter.Stimuli

open Cxx Toolbox

theorem pathToAudio_isSome_iff {nr : Nat} : (pathToAudio nr).isSome = true ↔ 1 ≤ nr ∧ nr ≤ 3 := by
  rw [pathToAudio]
  split_ifs with h1 h2 h3
  · exact iff_of_true rfl (by omega)
  · exact iff_of_true rfl (by omega)
  · exact iff_of_true rfl (by omega)
  · exact iff_of_false (by simp) (by omega)

/-- No movement-bound stimulus is started, no infinite loop is requested, and no check ends
without a return. -/
def Call.isPlain : Call → Bool
  | .playInfinitely _ => false
  | .setLoopCount _ count => 0 ≤ count
  | .missingReturn => false
  | _ => true

/-- Plain calls, and starts of movement-bound stimuli: each is unpaused in an infinite loop
right there, and nothing else is. -/
inductive Orderly : List Call → Prop
  | nil : Orderly []
  | plain {cs : List Call} {c : Call} (before : Orderly cs) (plain : c.isPlain = true) :
      Orderly (cs ++ [c])
  | loop {cs : List Call} (hijacked : Ref) (channel : Option Handle) (before : Orderly cs) :
      Orderly (cs ++ [.playInfinitely hijacked, .setMode channel .normal,
        .setLoopCount channel (-1), .setPaused channel false])

theorem Orderly.append {cs new : List Call} (h : Orderly cs)
    (hnew : ∀ c ∈ new, c.isPlain = true) : Orderly (cs ++ new) := by
  induction new generalizing cs with
  | nil => rwa [List.append_nil]
  | cons c new ih =>
    rw [← List.singleton_append, ← List.append_assoc]
    refine ih (.plain h (hnew c List.mem_cons_self)) ?_
    exact fun c' hc' => hnew c' (List.mem_cons_of_mem c hc')

theorem Orderly.missingReturn {cs : List Call} (h : Orderly cs) : .missingReturn ∉ cs := by
  induction h with
  | nil => exact List.not_mem_nil
  | plain _ hc ih =>
    rw [List.mem_append, List.mem_singleton, not_or]
    refine ⟨ih, ?_⟩
    rintro rfl
    exact absurd hc (by decide)
  | loop hijacked channel _ ih =>
    rw [List.mem_append, not_or]
    exact ⟨ih, by simp⟩

namespace StimuliLibrary

variable {files : Files} {heap : Store HostData} {lib : StimuliLibrary}

def Logged (lib : StimuliLibrary) : Prop := Orderly lib.calls

theorem Logged.append {lib' : StimuliLibrary} {cs : List Call} (h : lib.Logged)
    (hcalls : lib'.calls = lib.calls ++ cs) (hcs : ∀ c ∈ cs, c.isPlain = true) : lib'.Logged := by
  rw [Logged, hcalls]
  exact Orderly.append h hcs

theorem Logged.startOscillator (h : lib.Logged) (nr : Int) :
    (lib.startOscillator nr).Logged := by
  rw [StimuliLibrary.startOscillator]
  split_ifs
  · exact h.append (List.append_assoc _ _ _) (by simp [Call.isPlain])
  · exact h

theorem Logged.switchStimulus (h : lib.Logged) (nr : Int) :
    (lib.switchStimulus files nr).2.Logged := by
  rw [StimuliLibrary.switchStimulus]
  cases pathToAudio nr with
  | none => exact h
  | some path =>
    have hsound : ({ lib with pathToCurrentAudioFile := path }.createSound path).Logged :=
      h.append rfl (by simp [Call.isPlain])
    have hlength : (({ lib with pathToCurrentAudioFile := path }.createSound path).getLength
        files).Logged := hsound.append rfl (by simp [Call.isPlain])
    exact hlength.append (List.append_assoc _ _ _) (by simp [Call.isPlain])

theorem Logged.bLoadHostData (h : lib.Logged) (d : HostData) :
    (lib.bLoadHostData files d).2.Logged := by
  have hbegin : (lib.beginLoad d.stimulusNr d.loudness d.stimulusDuration).Logged :=
    h.append rfl (by simp [Call.isPlain])
  have hswitch : (((lib.beginLoad d.stimulusNr d.loudness d.stimulusDuration).startOscillator
      d.stimulusNr).switchStimulus files d.stimulusNr).2.Logged :=
    (hbegin.startOscillator d.stimulusNr).switchStimulus d.stimulusNr
  exact hswitch.append rfl (by simp [Call.isPlain])

theorem Logged.playStimuli (h : lib.Logged) (clockDSP : Nat) :
    (lib.playStimuli files clockDSP).Logged := by
  have hcases : ∀ lib : StimuliLibrary, lib.Logged → (lib.playCases files clockDSP).Logged := by
    intro lib h
    rw [playCases]
    split_ifs with h0 hlt
    · exact h.append rfl (by simp [Call.isPlain])
    · have hmultiple := files.double.multiple_pos (Nat.pos_of_ne_zero h0) hlt.le
      rw [Rounding.multiple] at hmultiple
      refine h.append rfl ?_
      simp only [List.forall_mem_cons, Call.isPlain, decide_eq_true_eq, List.not_mem_nil,
        false_implies, implies_true, and_true]
      omega
    · have hlength : (lib.log [.getLength lib.audio]).Logged :=
        h.append rfl (by simp [Call.isPlain])
      have hgroup : (lib.log [.getLength lib.audio]).getMasterChannelGroup.Logged :=
        hlength.append rfl (by simp [Call.isPlain])
      rw [playCut]
      exact ((hgroup.append rfl (by simp [Call.isPlain])).append rfl
        (by simp [Call.isPlain])).append rfl (by simp [Call.isPlain])
    · exact h.append rfl (by simp [Call.isPlain])
  exact (hcases _ (h.append rfl (by simp [Call.isPlain]))).append rfl (by simp [Call.isPlain])

theorem Logged.continueHijackedProtocol (h : lib.Logged) (movementQueue : List Ref)
    (answers : Answers) :
    (lib.continueHijackedProtocol heap movementQueue answers).2.Logged := by
  have hloop : ∀ lib : StimuliLibrary, lib.Logged → (lib.playInfinitely heap).2.Logged := by
    intro lib h
    rw [playInfinitely]
    split
    · split_ifs
      · exact .loop _ _ h
      · exact h
    · exact h
  have hasked : ∀ (lib : StimuliLibrary) (answer : Bool), lib.Logged →
      (lib.log [.reachedTarget answer]).Logged := fun _ _ h => h.append rfl (by simp [Call.isPlain])
  rw [StimuliLibrary.continueHijackedProtocol]
  split_ifs
  · exact hloop lib h
  · exact hloop _ (hasked lib _ h)
  · have hclear : ∀ lib : StimuliLibrary, lib.Logged →
        lib.vSetHijackedProtocolIsCompletelyProcessed.Logged :=
      fun _ h => h.append rfl (by simp [Call.isPlain])
    exact (hclear _ (hasked _ _ (hasked lib _ h))).append rfl (by simp [Call.isPlain])
  · exact hasked _ _ (hasked lib _ h)

/-- **Every way of a tick keeps its log orderly.** -/
theorem StimuliStep.orderly {movementQueue : List Ref} {answers : Answers} {cs : List Call}
    {out : Store HostData × StimuliLibrary} (h : lib.Logged)
    (hstep : lib.StimuliStep files heap movementQueue answers cs out) : out.2.Logged := by
  have hupdate : lib.updateFSystem.Logged := h.append rfl (by simp [Call.isPlain])
  have hlook : ∀ r, (lib.look files heap r).Logged := fun r => hupdate.bLoadHostData (heap.deref r)
  cases hstep with
  | hijacked r => exact (hlook r).continueHijackedProtocol movementQueue answers
  | take front rest =>
    have htake : ((lib.look files heap front).takeFront front rest).Logged :=
      (hlook front).append rfl (by simp [Call.isPlain])
    exact (htake.bLoadHostData _).continueHijackedProtocol movementQueue answers
  | remainder => exact hupdate.playStimuli answers.clockDSP
  | idle => exact hupdate
  | play front rest =>
    have hpop : ((lib.look files heap front).popFront front rest).Logged :=
      (hlook front).append rfl (by simp [Call.isPlain])
    exact (hpop.bLoadHostData _).playStimuli answers.clockDSP
  | pop front rest => exact (hlook front).append rfl (by simp [Call.isPlain])

end StimuliLibrary

end Orbiter.Stimuli
