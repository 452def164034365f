import Orbiter.Cxx.Strings
import Mathlib.Data.Rat.Init
import Mathlib.Algebra.Field.Rat

/-!
# `Toolbox::decodeHostData`

The decoder of one protocol string, as `Toolbox.cpp` has it: twelve
`stoi(substr(..))` at fixed offsets from `speakerID * 27`, a plausibility check,
and the assignments.  Speed, angle and loudness are the `float`s of the source
in exact arithmetic; `pow` is `std::pow`.

* `Accepts`: what a string has to be for the assignments to run.
* `decodeHostData_eq_zero_iff`: every other string gives the all-zero `HostData`.
* `decodeHostData_eq_window`: **the decoder reads 28 characters** — with enough
  characters for the length check, decoding for a speaker is decoding the window
  that starts at that speaker's `startIdx`.
-/

namespace Orbiter.Toolbox

open Cxx

structure HostData where
  direction : Nat
  speed : ℚ
  angularDistance : ℚ
  stimulusNr : Nat
  stimulusDuration : Nat
  loudness : ℚ
  toBeTriggerd : Bool
  movQueued : Bool
  stimQueued : Bool
  deriving DecidableEq, Repr, Inhabited

def maxStimulusNumber : Int := 3
def maxSpeakerNumber : Int := 2

def vSetHostDataToZero (structHostData : HostData) : HostData :=
  { structHostData with
    direction := 0
    speed := 0
    angularDistance := 0
    stimulusNr := 0
    stimulusDuration := 0
    loudness := 0
    toBeTriggerd := false
    movQueued := false
    stimQueued := false }

def HostData.zero : HostData := vSetHostDataToZero default

/-- The check, and `refHostData` as it leaves it. -/
def bCheckForValidity (refHostData : HostData) (strHostData : Str) (speakerID : Nat)
    (iRealSpeakerID iStimulusNumber iStimulusDuration iAngularDistance : Int) : Bool × HostData :=
  if strHostData.length < (speakerID + 1) * 27 ∨ maxSpeakerNumber < iRealSpeakerID ∨
      iRealSpeakerID < 0 ∨ maxStimulusNumber < iStimulusNumber ∨ iStimulusNumber ≤ 0 ∨
      (iStimulusDuration = 0 ∧ iAngularDistance = 0) then
    (false, vSetHostDataToZero refHostData)
  else (true, refHostData)

/-- The local `int`s of `decodeHostData`, in the order they are read. -/
structure Fields where
  realSpeakerID : Int
  motorDirection : Int
  speed : Int
  speedDiv100 : Int
  angularDistance : Int
  angularDistanceDiv100 : Int
  queuedMovNr : Int
  stimNr : Int
  stimDur : Int
  stimVolLReal : Int
  stimTbt : Int
  queuedStimNr : Int
  deriving DecidableEq, Repr

def startIdx (speakerID : Nat) : Int := toInt (speakerID * 27)

def readFields (hostData : Str) (startIdx : Int) : Except Exc Fields := do
  let realSpeakerID ← stoiSubstr hostData (startIdx + 0) 2
  let motorDirection ← stoiSubstr hostData (startIdx + 2) 1
  let speed ← stoiSubstr hostData (startIdx + 3) 3
  let speedDiv100 ← stoiSubstr hostData (startIdx + 7) 2
  let angularDistance ← stoiSubstr hostData (startIdx + 9) 3
  let angularDistanceDiv100 ← stoiSubstr hostData (startIdx + 13) 2
  let queuedMovNr ← stoiSubstr hostData (startIdx + 15) 1
  let stimNr ← stoiSubstr hostData (startIdx + 16) 2
  let stimDur ← stoiSubstr hostData (startIdx + 18) 6
  let stimVolLReal ← stoiSubstr hostData (startIdx + 24) 2
  let stimTbt ← stoiSubstr hostData (startIdx + 26) 1
  let queuedStimNr ← stoiSubstr hostData (startIdx + 27) 1
  return ⟨realSpeakerID, motorDirection, speed, speedDiv100, angularDistance,
    angularDistanceDiv100, queuedMovNr, stimNr, stimDur, stimVolLReal, stimTbt, queuedStimNr⟩

variable (pow : ℚ → ℚ → ℚ)

/-- The amplitude of a sound level in dB, with `Lmax = 90` and `C = 0`. -/
def loudness (stimVolLReal : Int) : ℚ := pow 10 ((stimVolLReal - 90 + 0) / 20)

def Fields.assign (f : Fields) (d : HostData) : HostData :=
  { d with
    direction := toUnsigned 8 f.motorDirection
    speed := 1 * f.speed + 1 / 100 * f.speedDiv100
    angularDistance := 1 * f.angularDistance + 1 / 100 * f.angularDistanceDiv100
    movQueued := f.queuedMovNr = 0
    stimulusDuration := toUnsigned 32 f.stimDur
    stimulusNr := toUnsigned 8 f.stimNr
    loudness := loudness pow f.stimVolLReal
    toBeTriggerd := f.stimTbt ≠ 0
    stimQueued := f.queuedStimNr = 0 }

/-- What the `try` and its `catch` make of the conversions.  The local `d` of the
source starts uninitialised; every path writes all of it. -/
def decodeFields (hostData : Str) (speakerID : Nat) : Except Exc Fields → HostData
  | .error _ => vSetHostDataToZero default
  | .ok f =>
    let check := bCheckForValidity default hostData speakerID f.realSpeakerID f.stimNr f.stimDur
      f.angularDistance
    if check.1 then f.assign pow check.2 else check.2

def decodeHostData (hostData : Str) (speakerID : Nat) : HostData :=
  decodeFields pow hostData speakerID (readFields hostData (startIdx speakerID))

/-! ### The fields read -/

theorem bind_eq_ok {ε : Type*} {α β : Type} {x : Except ε α} {g : α → Except ε β} {b : β} :
    (x >>= g) = .ok b ↔ ∃ a, x = .ok a ∧ g a = .ok b := by
  cases x <;> simp [bind, Except.bind]

/-- The offset and width of each field, in the order of `Fields`. -/
def layout : List (Nat × Nat) :=
  [(0, 2), (2, 1), (3, 3), (7, 2), (9, 3), (13, 2), (15, 1), (16, 2), (18, 6), (24, 2), (26, 1),
    (27, 1)]

def Fields.values (f : Fields) : List Int :=
  [f.realSpeakerID, f.motorDirection, f.speed, f.speedDiv100, f.angularDistance,
    f.angularDistanceDiv100, f.queuedMovNr, f.stimNr, f.stimDur, f.stimVolLReal, f.stimTbt,
    f.queuedStimNr]

def field (s : Str) (p : Nat × Nat) : Str := (s.drop p.1).take p.2

/-- The 28 characters from `startIdx` on; none before the string or behind it. -/
def window (s : Str) (k : Int) : Str := if k < 0 then [] else (s.drop k.toNat).take 28

theorem layout_bound : ∀ p ∈ layout, p.1 + p.2 ≤ 28 ∧ 0 < p.2 ∧ p.2 ≤ 6 := by decide

theorem forall_layout {α : Type*} {P : (Nat × Nat) × α → Prop} {a b c d e f g h i j k l : α} :
    (∀ x ∈ layout.zip [a, b, c, d, e, f, g, h, i, j, k, l], P x) ↔
      P ((0, 2), a) ∧ P ((2, 1), b) ∧ P ((3, 3), c) ∧ P ((7, 2), d) ∧ P ((9, 3), e) ∧
        P ((13, 2), f) ∧ P ((15, 1), g) ∧ P ((16, 2), h) ∧ P ((18, 6), i) ∧ P ((24, 2), j) ∧
        P ((26, 1), k) ∧ P ((27, 1), l) := by
  simp only [layout, List.zip_cons_cons, List.zip_nil_left, List.forall_mem_cons, List.not_mem_nil,
    false_implies, implies_true, and_true]

theorem window_zero (s : Str) : window s 0 = s.take 28 := rfl

theorem window_window (s : Str) (k : Int) : window (window s k) 0 = window s k := by
  rw [window_zero, window]
  split
  · rfl
  · rw [List.take_take, Nat.min_self]

theorem field_window {s : Str} {k : Int} (hk : 0 ≤ k) {p : Nat × Nat} (hp : p.1 + p.2 ≤ 28) :
    field (window s k) p = (s.drop (k + p.1).toNat).take p.2 := by
  have hnat : (k + p.1).toNat = k.toNat + p.1 := by omega
  rw [field, window, if_neg (by omega), List.drop_take, List.take_take, List.drop_drop,
    Nat.min_eq_left (by omega), hnat]

/-- **The decoder reads the window of its `startIdx` and nothing else.** -/
theorem readFields_eq_ok_iff {s : Str} {k : Int} {f : Fields} : readFields s k = .ok f ↔
    ∀ x ∈ layout.zip f.values, stoi (field (window s k) x.1) = .ok x.2 := by
  have hread : readFields s k = .ok f ↔
      ∀ x ∈ layout.zip f.values, stoiSubstr s (k + x.1.1) x.1.2 = .ok x.2 := by
    simp only [readFields, bind_eq_ok, Fields.values, forall_layout]
    constructor
    · rintro ⟨a, ha, b, hb, c, hc, d, hd, e, he, g, hg, i, hi, j, hj, l, hl, m, hm, n, hn, o, ho,
        hf⟩
      obtain rfl := Except.ok.inj hf
      exact ⟨ha, hb, hc, hd, he, hg, hi, hj, hl, hm, hn, ho⟩
    · rintro ⟨ha, hb, hc, hd, he, hg, hi, hj, hl, hm, hn, ho⟩
      exact ⟨_, ha, _, hb, _, hc, _, hd, _, he, _, hg, _, hi, _, hj, _, hl, _, hm, _, hn, _, ho,
        rfl⟩
  rw [hread]
  by_cases hk : 0 ≤ k
  · apply forall₂_congr
    intro x hx
    have hp := (layout_bound x.1 (List.of_mem_zip hx).1).1
    rw [stoiSubstr_eq_ok_iff, field_window hk hp]
    exact and_iff_right (by omega)
  · -- A negative `startIdx` throws in the first conversion, and its window is empty.
    have hfirst : ((0, 2), f.realSpeakerID) ∈ layout.zip f.values := by
      simp [layout, Fields.values]
    have hw : window s k = [] := if_pos (by omega)
    constructor
    · intro h
      have := (stoiSubstr_eq_ok_iff.mp (h _ hfirst)).1
      simp only at this
      omega
    · intro h
      have := h _ hfirst
      rw [hw] at this
      exact absurd this (by simp [field, stoi_nil])

theorem readFields_window (s : Str) (k : Int) (f : Fields) :
    readFields (window s k) 0 = .ok f ↔ readFields s k = .ok f := by
  rw [readFields_eq_ok_iff, readFields_eq_ok_iff, window_window]

theorem length_window_le (s : Str) (k : Int) : (window s k).length ≤ 28 := by
  rw [window]
  split
  · simp
  · exact List.length_take_le _ _

/-- The last field starts at offset 27, so a string that reads has 28 characters. -/
theorem length_window_of_read {s : Str} {k : Int} {f : Fields} (h : readFields s k = .ok f) :
    (window s k).length = 28 := by
  have hlast : ((27, 1), f.queuedStimNr) ∈ layout.zip f.values := by simp [layout, Fields.values]
  have hread := readFields_eq_ok_iff.mp h _ hlast
  have hle := length_window_le s k
  by_contra hne
  have hnil : field (window s k) (27, 1) = [] := by
    rw [field, List.drop_eq_nil_of_le (by omega), List.take_nil]
  rw [hnil] at hread
  exact absurd hread (by simp [stoi_nil])

/-! ### What is accepted -/

/-- The fields pass the range tests of `bCheckForValidity`. -/
def Fields.Plausible (f : Fields) : Prop :=
  0 ≤ f.realSpeakerID ∧ f.realSpeakerID ≤ 2 ∧ 1 ≤ f.stimNr ∧ f.stimNr ≤ 3 ∧
    ¬ (f.stimDur = 0 ∧ f.angularDistance = 0)

instance (f : Fields) : Decidable f.Plausible := by unfold Fields.Plausible; infer_instance

/-- The string reads as `f` for the speaker and passes the check. -/
def Accepts (s : Str) (speakerID : Nat) (f : Fields) : Prop :=
  readFields s (startIdx speakerID) = .ok f ∧ (speakerID + 1) * 27 ≤ s.length ∧ f.Plausible

variable {pow}

theorem decodeHostData_of_accepts {s : Str} {speakerID : Nat} {f : Fields}
    (h : Accepts s speakerID f) : decodeHostData pow s speakerID = f.assign pow default := by
  obtain ⟨hread, hlen, h0, h2, h1, h3, hne⟩ := h
  have hcheck : ¬ (s.length < (speakerID + 1) * 27 ∨ maxSpeakerNumber < f.realSpeakerID ∨
      f.realSpeakerID < 0 ∨ maxStimulusNumber < f.stimNr ∨ f.stimNr ≤ 0 ∨
      (f.stimDur = 0 ∧ f.angularDistance = 0)) := by
    rintro (h | h | h | h | h | h)
    · omega
    · exact absurd h2 (not_le.mpr h)
    · omega
    · exact absurd h3 (not_le.mpr h)
    · omega
    · exact hne h
  rw [decodeHostData, hread, decodeFields, bCheckForValidity, if_neg hcheck]
  rfl

theorem decodeHostData_of_not_accepts {s : Str} {speakerID : Nat}
    (h : ∀ f, ¬ Accepts s speakerID f) : decodeHostData pow s speakerID = HostData.zero := by
  rw [decodeHostData]
  cases hread : readFields s (startIdx speakerID) with
  | error e => rfl
  | ok f =>
    have hcheck : s.length < (speakerID + 1) * 27 ∨ maxSpeakerNumber < f.realSpeakerID ∨
        f.realSpeakerID < 0 ∨ maxStimulusNumber < f.stimNr ∨ f.stimNr ≤ 0 ∨
        (f.stimDur = 0 ∧ f.angularDistance = 0) := by
      by_contra hn
      simp only [not_or, not_lt, not_le] at hn
      obtain ⟨hl, h2, h0, h3, h1, hne⟩ := hn
      exact h f ⟨hread, hl, h0, h2, h1, h3, hne⟩
    simp only [decodeFields, bCheckForValidity, if_pos hcheck]
    rfl

theorem Fields.Plausible.stimulusNr {f : Fields} (h : f.Plausible) (d : HostData) :
    ((f.assign pow d).stimulusNr : Int) = f.stimNr := by
  obtain ⟨-, -, h1, h3, -⟩ := h
  show ((toUnsigned 8 f.stimNr : Nat) : Int) = f.stimNr
  obtain ⟨n, hn⟩ := Int.eq_ofNat_of_zero_le (show 0 ≤ f.stimNr by omega)
  rw [hn, toUnsigned_of_lt (by omega)]

theorem assign_ne_zero {f : Fields} (h : f.Plausible) (d : HostData) :
    f.assign pow d ≠ HostData.zero := by
  intro he
  have hnr : ((f.assign pow d).stimulusNr : Int) = f.stimNr := h.stimulusNr d
  rw [he] at hnr
  have h1 := h.2.2.1
  have hz : ((HostData.zero.stimulusNr : Nat) : Int) = 0 := rfl
  omega

/-- **Exactly the strings that do not read or fail the check decode to zero.** -/
theorem decodeHostData_eq_zero_iff {s : Str} {speakerID : Nat} :
    decodeHostData pow s speakerID = HostData.zero ↔ ∀ f, ¬ Accepts s speakerID f := by
  constructor
  · intro h f hf
    rw [decodeHostData_of_accepts hf] at h
    exact assign_ne_zero hf.2.2 _ h
  · exact decodeHostData_of_not_accepts

theorem startIdx_zero : startIdx 0 = 0 := rfl

theorem accepts_window {s : Str} {speakerID : Nat} (hlen : (speakerID + 1) * 27 ≤ s.length)
    (f : Fields) : Accepts s speakerID f ↔ Accepts (window s (startIdx speakerID)) 0 f := by
  have hw := readFields_window s (startIdx speakerID) f
  rw [Accepts, Accepts, startIdx_zero, hw]
  constructor
  · rintro ⟨hread, _, hp⟩
    exact ⟨hread, by rw [length_window_of_read hread]; decide, hp⟩
  · rintro ⟨hread, _, hp⟩
    exact ⟨hread, hlen, hp⟩

/-- **The decoder reads 28 characters.** -/
theorem decodeHostData_eq_window {s : Str} {speakerID : Nat}
    (hlen : (speakerID + 1) * 27 ≤ s.length) :
    decodeHostData pow s speakerID = decodeHostData pow (window s (startIdx speakerID)) 0 := by
  by_cases h : ∃ f, Accepts s speakerID f
  · obtain ⟨f, hf⟩ := h
    rw [decodeHostData_of_accepts hf, decodeHostData_of_accepts ((accepts_window hlen f).mp hf)]
  · have hn := not_exists.mp h
    rw [decodeHostData_of_not_accepts hn,
      decodeHostData_of_not_accepts fun f hf => hn f ((accepts_window hlen f).mpr hf)]

/-- What stands behind the first 28 characters does not matter. -/
theorem decodeHostData_take {n : Nat} (hn : 28 ≤ n) (s : Str) :
    decodeHostData pow (s.take n) 0 = decodeHostData pow s 0 := by
  by_cases hlen : 27 ≤ s.length
  · have htake : 27 ≤ (s.take n).length := by
      rw [List.length_take]
      omega
    rw [decodeHostData_eq_window (s := s.take n) (by omega),
      decodeHostData_eq_window (s := s) (by omega), startIdx_zero, window_zero, window_zero,
      List.take_take, Nat.min_eq_left hn]
  · rw [List.take_of_length_le (by omega)]

end Orbiter.Toolbox
