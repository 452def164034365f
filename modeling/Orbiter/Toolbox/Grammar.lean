import Orbiter.Toolbox.Decode

/-!
# The documented grammar and what the decoder accepts

`Toolbox.h` documents a record of 28 characters: digits, with a `.` at positions
6 and 12, and a range for each field (`Documented`).  The decoder tests less: a
field need only start with a number (`Reads`), and three ranges are checked
(`InRange`; both together are `Accepted`).

* `decodeHostData_ne_zero_iff`: **a string is accepted exactly when it reads and
  is in range.**
* `Documented.value_eq`: a documented string reads as its digits.
* `Documented.accepted_iff`: which documented strings are rejected.
* `rejected_only_idle_iff`: when a command is rejected only for asking for nothing.
* `acceptsOnlyDocumented_iff`: where the decoder accepts no more than it
  documents.
-/

namespace Orbiter.Toolbox

open Cxx

def number (s : Str) (p : Nat × Nat) : Nat := Nat.ofDigitChars 10 (field s p) 0

/-- The layout of the protocol comment: 28 characters, digits but for two dots. -/
def LaidOut (s : Str) : Prop :=
  ∀ i < 28, ∃ c, s[i]? = some c ∧ if i = 6 ∨ i = 12 then c = '.' else c.isDigit = true

/-- The protocol comment of `Toolbox.h`, for the first 28 characters. -/
structure Documented (s : Str) : Prop where
  chars : ∀ i < 28, ∃ c, s[i]? = some c ∧ if i = 6 ∨ i = 12 then c = '.' else c.isDigit = true
  direction : number s (2, 1) ≤ 2
  angle : number s (9, 3) * 100 + number s (13, 2) ≤ 36000
  stimulus : 1 ≤ number s (16, 2) ∧ number s (16, 2) ≤ 3
  queuedMovement : number s (15, 1) ≤ 1
  toBeTriggerd : number s (26, 1) ≤ 1
  queuedStimulus : number s (27, 1) ≤ 1

theorem laidOut_iff {s : Str} : LaidOut s ↔
    ∀ i < 28, s[i]?.any (fun c => if i = 6 ∨ i = 12 then c = '.' else c.isDigit) = true := by
  apply forall₂_congr
  intro i _
  rw [Option.any_eq_true]
  apply exists_congr
  intro c
  split <;> simp

instance (s : Str) : Decidable (LaidOut s) := decidable_of_iff' _ laidOut_iff

theorem documented_iff {s : Str} : Documented s ↔
    (∀ i < 28, s[i]?.any (fun c => if i = 6 ∨ i = 12 then c = '.' else c.isDigit) = true) ∧
      number s (2, 1) ≤ 2 ∧ number s (9, 3) * 100 + number s (13, 2) ≤ 36000 ∧
      (1 ≤ number s (16, 2) ∧ number s (16, 2) ≤ 3) ∧ number s (15, 1) ≤ 1 ∧
      number s (26, 1) ≤ 1 ∧ number s (27, 1) ≤ 1 := by
  rw [← laidOut_iff]
  exact ⟨fun ⟨h1, h2, h3, h4, h5, h6, h7⟩ => ⟨h1, h2, h3, h4, h5, h6, h7⟩,
    fun ⟨h1, h2, h3, h4, h5, h6, h7⟩ => ⟨h1, h2, h3, h4, h5, h6, h7⟩⟩

instance (s : Str) : Decidable (Documented s) := decidable_of_iff' _ documented_iff

/-- Every field starts, after blanks and one sign, with a digit. -/
def Reads (s : Str) : Prop := ∀ p ∈ layout, startsNumber (field s p) = true

instance (s : Str) : Decidable (Reads s) := by unfold Reads; infer_instance

theorem reads_iff {s : Str} {α : Type*} {a b c d e f g h i j k l : α} : Reads s ↔
    ∀ x ∈ layout.zip [a, b, c, d, e, f, g, h, i, j, k, l], startsNumber (field s x.1) = true := by
  rw [forall_layout]
  simp only [Reads, layout, List.forall_mem_cons, List.not_mem_nil, false_implies, implies_true,
    and_true]

def value (s : Str) (p : Nat × Nat) : Int := (strtol (field s p)).getD 0

/-- The three tests of the decoder: speaker, stimulus, and something to do. -/
def InRange (s : Str) : Prop :=
  0 ≤ value s (0, 2) ∧ value s (0, 2) ≤ 2 ∧ 1 ≤ value s (16, 2) ∧ value s (16, 2) ≤ 3 ∧
    ¬ (value s (18, 6) = 0 ∧ value s (9, 3) = 0)

instance (s : Str) : Decidable (InRange s) := by unfold InRange; infer_instance

/-- A string the decoder accepts, read off its characters. -/
def Accepted (s : Str) : Prop := Reads s ∧ InRange s

instance (s : Str) : Decidable (Accepted s) := by unfold Accepted; infer_instance

/-- The last field starts at offset 27. -/
theorem Accepted.le_length {s : Str} (h : Accepted s) : 28 ≤ s.length := by
  have hlast : startsNumber (field s (27, 1)) = true := h.1 (27, 1) (by decide)
  by_contra hlt
  rw [field, List.drop_eq_nil_of_le (by omega)] at hlast
  exact absurd hlast (by decide)

theorem Accepted.ne_nil {s : Str} (h : Accepted s) : s ≠ [] := by
  rintro rfl
  exact absurd h (by decide)

/-! ### Acceptance, character by character -/

theorem field_take (s : Str) {p : Nat × Nat} (hp : p.1 + p.2 ≤ 28) :
    field (s.take 28) p = field s p := by
  rw [field, field, List.drop_take, List.take_take, Nat.min_eq_left (by omega)]

theorem length_field_le (s : Str) (p : Nat × Nat) : (field s p).length ≤ p.2 :=
  List.length_take_le _ _

/-- The fields of a string, each as `value` reads it. -/
def valueFields (s : Str) : Fields where
  realSpeakerID := value s (0, 2)
  motorDirection := value s (2, 1)
  speed := value s (3, 3)
  speedDiv100 := value s (7, 2)
  angularDistance := value s (9, 3)
  angularDistanceDiv100 := value s (13, 2)
  queuedMovNr := value s (15, 1)
  stimNr := value s (16, 2)
  stimDur := value s (18, 6)
  stimVolLReal := value s (24, 2)
  stimTbt := value s (26, 1)
  queuedStimNr := value s (27, 1)

theorem inRange_iff {s : Str} : InRange s ↔ (valueFields s).Plausible := Iff.rfl

theorem stoi_field_iff {s : Str} {p : Nat × Nat} (hp : p ∈ layout) (v : Int) :
    stoi (field s p) = .ok v ↔ startsNumber (field s p) = true ∧ v = value s p := by
  have hlen : (field s p).length ≤ 9 := by
    have := length_field_le s p
    have := (layout_bound p hp).2.2
    omega
  rw [stoi_eq_ok_iff_strtol hlen, ← strtol_isSome, value]
  cases strtol (field s p) with
  | none => simp
  | some w => simp [eq_comm]

theorem readFields_zero_iff {s : Str} {f : Fields} :
    readFields s 0 = .ok f ↔ Reads s ∧ f = valueFields s := by
  rw [readFields_eq_ok_iff, window_zero]
  have hfield : ∀ x ∈ layout.zip f.values, (stoi (field (s.take 28) x.1) = .ok x.2 ↔
      startsNumber (field s x.1) = true ∧ x.2 = value s x.1) := by
    intro x hx
    have hp := (List.of_mem_zip hx).1
    rw [field_take s (layout_bound _ hp).1, stoi_field_iff hp]
  rw [show (∀ x ∈ layout.zip f.values, stoi (field (s.take 28) x.1) = .ok x.2) ↔
      ∀ x ∈ layout.zip f.values, startsNumber (field s x.1) = true ∧ x.2 = value s x.1 from
    forall₂_congr hfield]
  obtain ⟨a, b, c, d, e, g, h, i, j, k, l, m⟩ := f
  rw [reads_iff (a := a) (b := b) (c := c) (d := d) (e := e) (f := g) (g := h) (h := i) (i := j)
    (j := k) (k := l) (l := m)]
  simp only [Fields.values, valueFields, forall_layout, Fields.mk.injEq]
  tauto

theorem accepts_zero_iff {s : Str} {f : Fields} :
    Accepts s 0 f ↔ Reads s ∧ InRange s ∧ f = valueFields s := by
  rw [Accepts, startIdx_zero, readFields_zero_iff]
  constructor
  · rintro ⟨⟨hr, rfl⟩, -, hp⟩
    exact ⟨hr, hp, rfl⟩
  · rintro ⟨hr, hp, rfl⟩
    refine ⟨⟨hr, rfl⟩, ?_, hp⟩
    have hlen := length_window_of_read (readFields_zero_iff.mpr ⟨hr, rfl⟩)
    rw [window_zero, List.length_take] at hlen
    omega

variable {pow : ℚ → ℚ → ℚ}

/-- **A string is accepted exactly when it reads and is in range.** -/
theorem decodeHostData_ne_zero_iff {s : Str} :
    decodeHostData pow s 0 ≠ HostData.zero ↔ Accepted s := by
  rw [Ne, decodeHostData_eq_zero_iff]
  simp only [accepts_zero_iff, not_forall, not_not]
  constructor
  · rintro ⟨f, hr, hi, -⟩
    exact ⟨hr, hi⟩
  · rintro ⟨hr, hi⟩
    exact ⟨_, hr, hi, rfl⟩

theorem decodeHostData_of_accepted {s : Str} (h : Accepted s) :
    decodeHostData pow s 0 = (valueFields s).assign pow default :=
  decodeHostData_of_accepts (accepts_zero_iff.mpr ⟨h.1, h.2, rfl⟩)

theorem decodeHostData_of_not_accepted {s : Str} (h : ¬ Accepted s) :
    decodeHostData pow s 0 = HostData.zero := by
  by_contra hne
  exact h (decodeHostData_ne_zero_iff.mp hne)

/-! ### Documented strings -/

theorem mem_field_iff {s : Str} {p : Nat × Nat} {c : Char} :
    c ∈ field s p ↔ ∃ i < p.2, s[p.1 + i]? = some c := by
  rw [field, List.mem_take_iff_getElem]
  constructor
  · rintro ⟨i, hi, rfl⟩
    simp only [List.length_drop] at hi
    exact ⟨i, by omega, by rw [List.getElem_drop]; exact List.getElem?_eq_getElem _⟩
  · rintro ⟨i, hi, hc⟩
    obtain ⟨hlt, he⟩ := List.getElem?_eq_some_iff.mp hc
    exact ⟨i, by simp only [List.length_drop]; omega, by rw [List.getElem_drop]; exact he⟩

theorem layout_avoids_separators : ∀ p ∈ layout, ∀ i < p.2, p.1 + i ≠ 6 ∧ p.1 + i ≠ 12 := by
  decide

theorem LaidOut.field_isDigit {s : Str} (h : LaidOut s) {p : Nat × Nat} (hp : p ∈ layout) :
    ∀ c ∈ field s p, c.isDigit = true := by
  intro c hc
  obtain ⟨i, hi, hget⟩ := mem_field_iff.mp hc
  have hb := (layout_bound p hp).1
  have hsep := layout_avoids_separators p hp i hi
  obtain ⟨c', hget', hchar⟩ := h (p.1 + i) (by omega)
  rw [hget] at hget'
  obtain rfl := Option.some.inj hget'
  rwa [if_neg (by omega)] at hchar

theorem LaidOut.field_ne_nil {s : Str} (h : LaidOut s) {p : Nat × Nat} (hp : p ∈ layout) :
    field s p ≠ [] := by
  have hb := layout_bound p hp
  obtain ⟨c, hget, -⟩ := h p.1 (by omega)
  exact List.ne_nil_of_mem (mem_field_iff.mpr ⟨0, hb.2.1, hget⟩)

theorem LaidOut.strtol_field {s : Str} (h : LaidOut s) {p : Nat × Nat} (hp : p ∈ layout) :
    strtol (field s p) = some (number s p : Int) :=
  strtol_of_isDigit (h.field_ne_nil hp) (h.field_isDigit hp)

/-- **A string of the layout reads as its digits.** -/
theorem LaidOut.value_eq {s : Str} (h : LaidOut s) {p : Nat × Nat} (hp : p ∈ layout) :
    value s p = number s p := by
  rw [value, h.strtol_field hp, Option.getD_some]

theorem LaidOut.number_lt {s : Str} (h : LaidOut s) {p : Nat × Nat} (hp : p ∈ layout) :
    number s p < 10 ^ p.2 :=
  lt_of_lt_of_le (ofDigitChars_lt (h.field_isDigit hp))
    (Nat.pow_le_pow_right (by decide) (length_field_le s p))

theorem LaidOut.reads {s : Str} (h : LaidOut s) : Reads s := by
  intro p hp
  rw [← strtol_isSome, h.strtol_field hp, Option.isSome_some]

/-- **Which strings of the layout are accepted**: those of a known speaker and stimulus
that ask for some time or a whole degree. -/
theorem LaidOut.accepted_iff {s : Str} (h : LaidOut s) : Accepted s ↔
    number s (0, 2) ≤ 2 ∧ (1 ≤ number s (16, 2) ∧ number s (16, 2) ≤ 3) ∧
      ¬ (number s (18, 6) = 0 ∧ number s (9, 3) = 0) := by
  rw [Accepted, and_iff_right h.reads, InRange, h.value_eq (p := (0, 2)) (by decide),
    h.value_eq (p := (16, 2)) (by decide), h.value_eq (p := (18, 6)) (by decide),
    h.value_eq (p := (9, 3)) (by decide)]
  omega

theorem Documented.laidOut {s : Str} (h : Documented s) : LaidOut s := h.chars

/-- **A documented string reads as its digits.** -/
theorem Documented.value_eq {s : Str} (h : Documented s) {p : Nat × Nat} (hp : p ∈ layout) :
    value s p = number s p := h.laidOut.value_eq hp

/-- **Which documented strings are rejected**: those of an unknown speaker, and those
that ask for no time and no whole degree. -/
theorem Documented.accepted_iff {s : Str} (h : Documented s) : Accepted s ↔
    number s (0, 2) ≤ 2 ∧ ¬ (number s (18, 6) = 0 ∧ number s (9, 3) = 0) := by
  rw [h.laidOut.accepted_iff, and_iff_right h.stimulus]


/-! ### Nothing to process -/

/-- No time and no angle, whole degrees and hundredths. -/
def AsksForNothing (s : Str) : Prop :=
  number s (18, 6) = 0 ∧ number s (9, 3) = 0 ∧ number s (13, 2) = 0

instance (s : Str) : Decidable (AsksForNothing s) := by unfold AsksForNothing; infer_instance

/-- **A command is rejected only for asking for nothing exactly when it does not ask for
an angle between 0 and 1 degree in no time.** -/
theorem rejected_only_idle_iff {s : Str} (h : LaidOut s) (hspeaker : number s (0, 2) ≤ 2)
    (hstimulus : 1 ≤ number s (16, 2) ∧ number s (16, 2) ≤ 3) :
    (decodeHostData pow s 0 = HostData.zero → AsksForNothing s) ↔
      ¬ (number s (18, 6) = 0 ∧ number s (9, 3) = 0 ∧ number s (13, 2) ≠ 0) := by
  have hrejected : decodeHostData pow s 0 = HostData.zero ↔
      number s (18, 6) = 0 ∧ number s (9, 3) = 0 := by
    rw [← not_iff_not, ← Ne, decodeHostData_ne_zero_iff, h.accepted_iff, and_iff_right hspeaker,
      and_iff_right hstimulus]
  rw [hrejected, AsksForNothing]
  tauto

theorem rejected_only_idle_ninety :
    (decodeHostData (fun _ _ => 1) "001010.00090.000010025009010".toList 0 = HostData.zero →
      AsksForNothing "001010.00090.000010025009010".toList) ↔
      ¬ (number "001010.00090.000010025009010".toList (18, 6) = 0 ∧
        number "001010.00090.000010025009010".toList (9, 3) = 0 ∧
        number "001010.00090.000010025009010".toList (13, 2) ≠ 0) :=
  rejected_only_idle_iff (by decide) (by decide) (by decide)

/-- Half a degree in no time is taken for nothing. -/
theorem half_degree_rejected : ¬ ∀ s : Str, LaidOut s → number s (0, 2) ≤ 2 →
    1 ≤ number s (16, 2) ∧ number s (16, 2) ≤ 3 →
    decodeHostData (fun _ _ => 1) s 0 = HostData.zero → AsksForNothing s := by
  intro h
  exact absurd (h "001010.00000.500010000009010".toList (by decide) (by decide) (by decide)
    (by decide +kernel)) (by decide)

/-! ### The accepted language -/

variable (pow)

/-- What is accepted is documented, and so within the documented ranges. -/
def AcceptsOnlyDocumented (s : Str) : Prop :=
  let d := decodeHostData pow s 0
  d ≠ HostData.zero → Documented s ∧ 0 ≤ d.speed ∧ 0 ≤ d.angularDistance ∧ d.direction ≤ 2 ∧
    d.stimulusDuration ≤ 999999

variable {pow}

/-- The ranges of a documented string that is accepted. -/
theorem Documented.ranges {s : Str} (h : Documented s) (d : HostData) :
    let d := (valueFields s).assign pow d
    0 ≤ d.speed ∧ 0 ≤ d.angularDistance ∧ d.direction ≤ 2 ∧ d.stimulusDuration ≤ 999999 := by
  have hnonneg : ∀ p ∈ layout, (0 : ℚ) ≤ value s p := by
    intro p hp
    rw [h.value_eq hp]
    positivity
  refine ⟨?_, ?_, ?_, ?_⟩
  · have h1 := hnonneg (3, 3) (by decide)
    have h2 := hnonneg (7, 2) (by decide)
    show 0 ≤ 1 * (value s (3, 3) : ℚ) + 1 / 100 * value s (7, 2)
    positivity
  · have h1 := hnonneg (9, 3) (by decide)
    have h2 := hnonneg (13, 2) (by decide)
    show 0 ≤ 1 * (value s (9, 3) : ℚ) + 1 / 100 * value s (13, 2)
    positivity
  · show toUnsigned 8 (value s (2, 1)) ≤ 2
    have hd := h.direction
    rw [h.value_eq (by decide), toUnsigned_of_lt (by omega)]
    exact hd
  · show toUnsigned 32 (value s (18, 6)) ≤ 999999
    have hd : number s (18, 6) < 10 ^ 6 := h.laidOut.number_lt (by decide)
    rw [h.value_eq (by decide), toUnsigned_of_lt (by omega)]
    omega

/-- **The decoder accepts only the documented grammar on exactly the strings it
rejects for a field that does not read or is out of range, and the documented
ones.** -/
theorem acceptsOnlyDocumented_iff (s : Str) :
    AcceptsOnlyDocumented pow s ↔ ¬ Reads s ∨ ¬ InRange s ∨ Documented s := by
  constructor
  · intro h
    by_cases hr : Reads s
    · by_cases hi : InRange s
      · exact Or.inr (Or.inr (h (decodeHostData_ne_zero_iff.mpr ⟨hr, hi⟩)).1)
      · exact Or.inr (Or.inl hi)
    · exact Or.inl hr
  · intro h hne
    obtain ⟨hr, hi⟩ := decodeHostData_ne_zero_iff.mp hne
    have hd : Documented s := (h.resolve_left (not_not.mpr hr)).resolve_left (not_not.mpr hi)
    rw [decodeHostData_of_accepted ⟨hr, hi⟩]
    exact ⟨hd, hd.ranges default⟩

/-- A direction of 9 is accepted, though only 0, 1 and 2 are documented. -/
theorem accepts_undocumented :
    ¬ AcceptsOnlyDocumented (fun _ _ => 1) "009010.00090.000010010009010".toList := by
  intro h
  have hd := h (decodeHostData_ne_zero_iff.mpr ⟨by decide, by decide⟩)
  exact absurd hd.1.direction (by decide)

end Orbiter.Toolbox
