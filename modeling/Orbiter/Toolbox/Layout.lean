import Orbiter.Toolbox.Grammar
import Mathlib.Tactic.FieldSimp
import Mathlib.Tactic.Linarith

/-!
# Records of the protocol layout

The host side of the protocol: a `Record` is what one 28-character message says,
and `Record.format` writes it with leading zeros and the two separators.

* `decodeHostData_format`: **decoding undoes encoding**, whatever follows the
  record.
* `decodeHostData_flatten`: what the decoder finds for a later speaker.  Its stride is
  27 and a record has 28 characters, so for speaker `i` it reads from `i` characters
  too early on.  For most speakers a separator then falls on the start of a field
  (`clear_iff`), and the decoder rejects every list of records.
* `decodeHostData_flatten_iff`: when that is what record `i` says.
-/

namespace Orbiter.Toolbox

open Cxx

/-! ### Fixed-width pieces -/

/-- The offset and width of each piece of a concatenation, from offset `k` on. -/
def spans : Nat → List Nat → List (Nat × Nat)
  | _, [] => []
  | k, n :: ns => (k, n) :: spans (k + n) ns

theorem field_append {a b : Str} (c : Str) : field (a ++ (b ++ c)) (a.length, b.length) = b := by
  rw [field, List.drop_left, List.take_left]

theorem field_spans (pieces : List Str) (tail : Str) : ∀ (front : Str),
    ∀ x ∈ (spans front.length (pieces.map List.length)).zip pieces,
      field (front ++ (pieces.flatten ++ tail)) x.1 = x.2 := by
  induction pieces with
  | nil => intro front x hx; simp [spans] at hx
  | cons b pieces ih =>
    intro front x hx
    rw [List.map_cons, spans, List.zip_cons_cons] at hx
    rw [List.flatten_cons, List.append_assoc]
    rcases List.mem_cons.mp hx with rfl | hx
    · exact field_append _
    · have := ih (front ++ b) x (by rw [List.length_append]; exact hx)
      rwa [List.append_assoc] at this

/-! ### Decoding undoes encoding -/

/-- What one message of the host says; speed and angle in hundredths. -/
structure Record where
  speakerID : Nat
  direction : Nat
  speed : Nat
  angle : Nat
  queuedMovement : Nat
  stimulusNr : Nat
  stimulusDuration : Nat
  level : Nat
  toBeTriggerd : Nat
  queuedStimulus : Nat
  speakerID_le : speakerID ≤ 2
  direction_le : direction ≤ 2
  speed_le : speed ≤ 99999
  angle_le : angle ≤ 99999
  queuedMovement_le : queuedMovement ≤ 1
  stimulusNr_pos : 1 ≤ stimulusNr
  stimulusNr_le : stimulusNr ≤ 3
  stimulusDuration_le : stimulusDuration ≤ 999999
  level_le : level ≤ 99
  toBeTriggerd_le : toBeTriggerd ≤ 1
  queuedStimulus_le : queuedStimulus ≤ 1

namespace Record

variable (r : Record)

def pieces : List Str :=
  [padded 2 r.speakerID, padded 1 r.direction, padded 3 (r.speed / 100), ['.'],
    padded 2 (r.speed % 100), padded 3 (r.angle / 100), ['.'], padded 2 (r.angle % 100),
    padded 1 r.queuedMovement, padded 2 r.stimulusNr, padded 6 r.stimulusDuration,
    padded 2 r.level, padded 1 r.toBeTriggerd, padded 1 r.queuedStimulus]

def format : Str := r.pieces.flatten

/-- The numbers of the record, one for each entry of `layout`. -/
def numbers : List Nat :=
  [r.speakerID, r.direction, r.speed / 100, r.speed % 100, r.angle / 100, r.angle % 100,
    r.queuedMovement, r.stimulusNr, r.stimulusDuration, r.level, r.toBeTriggerd, r.queuedStimulus]

def hostData (pow : ℚ → ℚ → ℚ) : HostData where
  direction := r.direction
  speed := r.speed / 100
  angularDistance := r.angle / 100
  stimulusNr := r.stimulusNr
  stimulusDuration := r.stimulusDuration
  loudness := loudness pow r.level
  toBeTriggerd := r.toBeTriggerd = 1
  movQueued := r.queuedMovement = 0
  stimQueued := r.queuedStimulus = 0

theorem numbers_lt : ∀ x ∈ layout.zip r.numbers, x.2 < 10 ^ x.1.2 := by
  have h0 := r.speakerID_le
  have h1 := r.direction_le
  have h2 := r.speed_le
  have h3 := r.angle_le
  have h4 := r.queuedMovement_le
  have h5 := r.stimulusNr_le
  have h6 := r.stimulusDuration_le
  have h7 := r.level_le
  have h8 := r.toBeTriggerd_le
  have h9 := r.queuedStimulus_le
  simp only [numbers, forall_layout]
  refine ⟨?_, ?_, ?_, ?_, ?_, ?_, ?_, ?_, ?_, ?_, ?_, ?_⟩ <;> omega

theorem map_length_pieces :
    r.pieces.map List.length = [2, 1, 3, 1, 2, 3, 1, 2, 1, 2, 6, 2, 1, 1] := by
  have h := r.numbers_lt
  simp only [numbers, forall_layout] at h
  obtain ⟨h0, h1, h2, h3, h4, h5, h6, h7, h8, h9, h10, h11⟩ := h
  simp only [pieces, List.map_cons, List.map_nil, List.length_singleton,
    padded_length (by decide : 0 < 2) h0, padded_length (by decide : 0 < 1) h1,
    padded_length (by decide : 0 < 3) h2, padded_length (by decide : 0 < 2) h3,
    padded_length (by decide : 0 < 3) h4, padded_length (by decide : 0 < 2) h5,
    padded_length (by decide : 0 < 1) h6, padded_length (by decide : 0 < 2) h7,
    padded_length (by decide : 0 < 6) h8, padded_length (by decide : 0 < 2) h9,
    padded_length (by decide : 0 < 1) h10, padded_length (by decide : 0 < 1) h11]

/-- **The hand-written offsets line up with the layout.** -/
theorem field_format (tail : Str) :
    ∀ x ∈ layout.zip r.numbers, field (r.format ++ tail) x.1 = padded x.1.2 x.2 := by
  intro x hx
  have hspan := field_spans r.pieces tail []
  rw [map_length_pieces] at hspan
  refine hspan (x.1, padded x.1.2 x.2) ?_
  simp only [layout, numbers, List.zip_cons_cons, List.zip_nil_left, List.mem_cons,
    List.not_mem_nil, or_false] at hx
  simp only [List.length_nil, spans, pieces, List.zip_cons_cons, List.zip_nil_left, List.mem_cons,
    List.not_mem_nil, or_false]
  rcases hx with rfl | rfl | rfl | rfl | rfl | rfl | rfl | rfl | rfl | rfl | rfl | rfl <;> simp

theorem strtol_field (tail : Str) :
    ∀ x ∈ layout.zip r.numbers, strtol (field (r.format ++ tail) x.1) = some (x.2 : Int) := by
  intro x hx
  have hw := layout_bound x.1 (List.of_mem_zip hx).1
  have hlen := padded_length hw.2.1 (r.numbers_lt x hx)
  rw [r.field_format tail x hx, ← stoi_eq_ok_iff_strtol (by omega)]
  exact stoi_padded hw.2.1 (by omega) (r.numbers_lt x hx)

theorem reads_format (tail : Str) : Reads (r.format ++ tail) := by
  have h := r.strtol_field tail
  have hsome : ∀ x ∈ layout.zip r.numbers, startsNumber (field (r.format ++ tail) x.1) = true := by
    intro x hx
    rw [← strtol_isSome, h x hx, Option.isSome_some]
  exact reads_iff.mpr hsome

theorem valueFields_format (tail : Str) : valueFields (r.format ++ tail) =
    ⟨r.speakerID, r.direction, (r.speed / 100 : Nat), (r.speed % 100 : Nat), (r.angle / 100 : Nat),
      (r.angle % 100 : Nat), r.queuedMovement, r.stimulusNr, r.stimulusDuration, r.level,
      r.toBeTriggerd, r.queuedStimulus⟩ := by
  have hvalue : ∀ x ∈ layout.zip r.numbers, value (r.format ++ tail) x.1 = x.2 := by
    intro x hx
    rw [value, r.strtol_field tail x hx, Option.getD_some]
  simp only [numbers, forall_layout] at hvalue
  obtain ⟨h0, h1, h2, h3, h4, h5, h6, h7, h8, h9, h10, h11⟩ := hvalue
  simp only [valueFields, h0, h1, h2, h3, h4, h5, h6, h7, h8, h9, h10, h11]

end Record

theorem hundredths (n : Nat) : (1 : ℚ) * ((n / 100 : Nat) : Int) + 1 / 100 * ((n % 100 : Nat) : Int)
    = n / 100 := by
  have h : ((n / 100 : Nat) : ℚ) * 100 + ((n % 100 : Nat) : ℚ) = n := by
    exact_mod_cast Nat.div_add_mod' n 100
  rw [Int.cast_natCast, Int.cast_natCast]
  linarith

variable {pow : ℚ → ℚ → ℚ}

/-- **Decoding undoes encoding**, whatever follows the record. -/
theorem decodeHostData_format (r : Record)
    (h : r.stimulusDuration ≠ 0 ∨ r.angle / 100 ≠ 0) (tail : Str) :
    decodeHostData pow (r.format ++ tail) 0 = r.hostData pow := by
  have hfields := r.valueFields_format tail
  have hrange : InRange (r.format ++ tail) := by
    have h1 := r.speakerID_le
    have h2 := r.stimulusNr_pos
    have h3 := r.stimulusNr_le
    simp only [inRange_iff, hfields, Fields.Plausible]
    omega
  rw [decodeHostData_of_accepted ⟨r.reads_format tail, hrange⟩, hfields]
  have hdir := r.direction_le
  have hnr := r.stimulusNr_le
  have hdur := r.stimulusDuration_le
  have htbt := r.toBeTriggerd_le
  simp only [Fields.assign, Record.hostData, hundredths, HostData.mk.injEq]
  refine ⟨toUnsigned_of_lt (by omega), trivial, trivial, toUnsigned_of_lt (by omega),
    toUnsigned_of_lt (by omega), trivial, ?_, ?_, ?_⟩
  · rw [decide_eq_decide]; omega
  · rw [decide_eq_decide]; omega
  · rw [decide_eq_decide]; omega

/-- The first stimulus for 2.5 s at full level, a quarter turn clockwise. -/
def chirp : Record where
  speakerID := 0
  direction := 1
  speed := 1000
  angle := 9050
  queuedMovement := 0
  stimulusNr := 1
  stimulusDuration := 2500
  level := 90
  toBeTriggerd := 1
  queuedStimulus := 0
  speakerID_le := by decide
  direction_le := by decide
  speed_le := by decide
  angle_le := by decide
  queuedMovement_le := by decide
  stimulusNr_pos := by decide
  stimulusNr_le := by decide
  stimulusDuration_le := by decide
  level_le := by decide
  toBeTriggerd_le := by decide
  queuedStimulus_le := by decide

theorem decodeHostData_format_chirp :
    chirp.stimulusDuration ≠ 0 ∧ decodeHostData (fun _ _ => 1) (chirp.format ++ ['0', '1']) 0 =
      chirp.hostData fun _ _ => 1 :=
  ⟨by decide, decodeHostData_format chirp (Or.inl (by decide)) _⟩

/-! ### Records of several speakers -/

theorem length_flatten_records {records : List Str} (h : ∀ r ∈ records, r.length = 28) :
    records.flatten.length = 28 * records.length := by
  induction records with
  | nil => rfl
  | cons r records ih =>
    rw [List.flatten_cons, List.length_append, List.length_cons, h r (by simp),
      ih fun r' hr' => h r' (by simp [hr'])]
    omega

/-- Character `q` of records of 28 characters, one behind the other. -/
def charAt (records : List Str) (q : Nat) : Option Char :=
  records[q / 28]?.bind fun r => r[q % 28]?

theorem getElem?_flatten_records {records : List Str} (h : ∀ r ∈ records, r.length = 28) (q : Nat) :
    records.flatten[q]? = charAt records q := by
  induction records generalizing q with
  | nil => simp [charAt]
  | cons r records ih =>
    have hr : r.length = 28 := h r (by simp)
    rw [List.flatten_cons, charAt]
    by_cases hq : q < 28
    · rw [List.getElem?_append_left (by omega), Nat.div_eq_of_lt hq, Nat.mod_eq_of_lt hq]
      simp
    · rw [List.getElem?_append_right (by omega), hr, ih fun r' hr' => h r' (by simp [hr']), charAt,
        show q / 28 = (q - 28) / 28 + 1 by omega, show q % 28 = (q - 28) % 28 by omega,
        List.getElem?_cons_succ]

/-- Where the reading for speaker `i` starts: `i * 27`, as the `int` of the source
keeps it; from `2 ^ 31` on that is a negative number. -/
def readsFrom (i : Nat) : Nat := i * 27 % 2 ^ 32

/-- The digits found for a field of speaker `i`, up to the first separator. -/
def digitsRead (records : List Str) (i : Nat) (p : Nat × Nat) : Str :=
  ((List.range p.2).filterMap fun j => charAt records (readsFrom i + p.1 + j)).takeWhile
    Char.isDigit

def numberRead (records : List Str) (i : Nat) (p : Nat × Nat) : Nat :=
  Nat.ofDigitChars 10 (digitsRead records i p) 0

/-- Reading starts at such a place of a record that no field starts at a separator. -/
def Clear (i : Nat) : Prop :=
  readsFrom i < 2 ^ 31 ∧ readsFrom i % 28 ∈ [0, 1, 2, 11, 15, 17, 20, 23, 26]

instance (i : Nat) : Decidable (Clear i) := by unfold Clear; infer_instance

theorem readsFrom_of_lt {i : Nat} (h : i * 27 < 2 ^ 31) : readsFrom i = i * 27 :=
  Nat.mod_eq_of_lt (by omega)

/-- As far as `int` reaches, the speaker's number tells. -/
theorem clear_iff {i : Nat} (h : i * 27 < 2 ^ 31) :
    Clear i ↔ i % 28 ∈ [0, 2, 5, 8, 11, 13, 17, 26, 27] := by
  have hplaces : ∀ q < 28, q * 27 % 28 ∈ [0, 1, 2, 11, 15, 17, 20, 23, 26] ↔
      q ∈ [0, 2, 5, 8, 11, 13, 17, 26, 27] := by decide
  have hmod : i * 27 % 28 = i % 28 * 27 % 28 := by omega
  rw [Clear, readsFrom_of_lt h, and_iff_right h, hmod]
  exact hplaces (i % 28) (Nat.mod_lt i (by decide))

/-- The numbers of a command: a known speaker, a known stimulus, and something to do. -/
def Command (n : Nat × Nat → Nat) : Prop :=
  n (0, 2) ≤ 2 ∧ (1 ≤ n (16, 2) ∧ n (16, 2) ≤ 3) ∧ ¬ (n (18, 6) = 0 ∧ n (9, 3) = 0)

instance (n : Nat × Nat → Nat) : Decidable (Command n) := by unfold Command; infer_instance

structure SameCommand (pow : ℚ → ℚ → ℚ) (n m : Nat × Nat → Nat) : Prop where
  numbers : ∀ p ∈ [(2, 1), (3, 3), (7, 2), (9, 3), (13, 2), (16, 2), (18, 6)], n p = m p
  flags : ∀ p ∈ [(15, 1), (26, 1), (27, 1)], n p = 0 ↔ m p = 0
  level : loudness pow (n (24, 2)) = loudness pow (m (24, 2))

def fieldsOf (n : Nat × Nat → Nat) : Fields :=
  ⟨n (0, 2), n (2, 1), n (3, 3), n (7, 2), n (9, 3), n (13, 2), n (15, 1), n (16, 2), n (18, 6),
    n (24, 2), n (26, 1), n (27, 1)⟩

theorem plausible_fieldsOf {n : Nat × Nat → Nat} : (fieldsOf n).Plausible ↔ Command n := by
  simp only [Fields.Plausible, fieldsOf, Command]
  omega

theorem assign_fieldsOf_ne_zero {n : Nat × Nat → Nat} (h : Command n) :
    (fieldsOf n).assign pow default ≠ HostData.zero := assign_ne_zero (plausible_fieldsOf.mpr h) _

theorem hundredths_inj {a b a' b' : Nat} (hb : b < 100) (hb' : b' < 100) :
    (1 : ℚ) * ((a : Int) : ℚ) + 1 / 100 * ((b : Int) : ℚ) =
      1 * ((a' : Int) : ℚ) + 1 / 100 * ((b' : Int) : ℚ) ↔ a = a' ∧ b = b' := by
  constructor
  · intro h
    rw [Int.cast_natCast, Int.cast_natCast, Int.cast_natCast, Int.cast_natCast] at h
    have hq : ((100 * a + b : Nat) : ℚ) = ((100 * a' + b' : Nat) : ℚ) := by
      push_cast
      linarith
    have hn : 100 * a + b = 100 * a' + b' := by exact_mod_cast hq
    omega
  · rintro ⟨rfl, rfl⟩
    rfl

theorem toUnsigned_number {n : Nat × Nat → Nat} (hn : ∀ p ∈ layout, n p < 10 ^ p.2) :
    toUnsigned 8 (n (2, 1)) = n (2, 1) ∧ toUnsigned 8 (n (16, 2)) = n (16, 2) ∧
      toUnsigned 32 (n (18, 6)) = n (18, 6) := by
  have h1 : n (2, 1) < 10 ^ 1 := hn (2, 1) (by decide)
  have h2 : n (16, 2) < 10 ^ 2 := hn (16, 2) (by decide)
  have h3 : n (18, 6) < 10 ^ 6 := hn (18, 6) (by decide)
  exact ⟨toUnsigned_of_lt (by omega), toUnsigned_of_lt (by omega), toUnsigned_of_lt (by omega)⟩

theorem assign_fieldsOf_eq_iff {n m : Nat × Nat → Nat} (hn : ∀ p ∈ layout, n p < 10 ^ p.2)
    (hm : ∀ p ∈ layout, m p < 10 ^ p.2) (d : HostData) :
    (fieldsOf n).assign pow d = (fieldsOf m).assign pow d ↔ SameCommand pow n m := by
  obtain ⟨hn1, hn2, hn3⟩ := toUnsigned_number hn
  obtain ⟨hm1, hm2, hm3⟩ := toUnsigned_number hm
  simp only [Fields.assign, fieldsOf, HostData.mk.injEq,
    hundredths_inj (hn (7, 2) (by decide)) (hm (7, 2) (by decide)),
    hundredths_inj (hn (13, 2) (by decide)) (hm (13, 2) (by decide)),
    decide_eq_decide, ne_eq, not_iff_not, Int.natCast_eq_zero, hn1, hn2, hn3, hm1, hm2, hm3]
  constructor
  · rintro ⟨hdir, ⟨hs, hs'⟩, ⟨ha, ha'⟩, hnr, hdur, hlevel, htbt, hmov, hstim⟩
    exact ⟨by simp [hdir, hs, hs', ha, ha', hnr, hdur], by simp [hmov, htbt, hstim], hlevel⟩
  · rintro ⟨hnum, hflag, hlevel⟩
    simp only [List.forall_mem_cons, List.not_mem_nil, false_implies, implies_true, and_true]
      at hnum hflag
    obtain ⟨hdir, hs, hs', ha, ha', hnr, hdur⟩ := hnum
    exact ⟨hdir, ⟨hs, hs'⟩, ⟨ha, ha'⟩, hnr, hdur, hlevel, hflag.2.1, hflag.1, hflag.2.2⟩

/-! ### What is read for a later speaker -/

theorem window_startIdx (s : Str) (i : Nat) : window s (startIdx i) =
    if readsFrom i < 2 ^ 31 then (s.drop (readsFrom i)).take 28 else [] := by
  have hmod : startIdx i = if readsFrom i < 2 ^ 31 then (readsFrom i : Int)
      else (readsFrom i : Int) - 2 ^ 32 := toInt_eq _
  have hlt : readsFrom i < 2 ^ 32 := Nat.mod_lt _ (by decide)
  rw [hmod, window]
  by_cases hr : readsFrom i < 2 ^ 31
  · rw [if_pos hr, if_pos hr, if_neg (by omega), Int.toNat_natCast]
  · rw [if_neg hr, if_neg hr, if_pos (by omega)]

theorem take_drop_eq_filterMap {α : Type*} (l : List α) (a n : Nat) :
    (l.drop a).take n = (List.range n).filterMap fun j => l[a + j]? := by
  induction n with
  | zero => rfl
  | succ n ih =>
    rw [List.take_add_one, ih, List.range_succ, List.filterMap_append, List.getElem?_drop]
    cases hget : l[a + n]? with
    | none => simp [hget]
    | some x => simp [hget]

theorem numberRead_lt (records : List Str) (i : Nat) (p : Nat × Nat) :
    numberRead records i p < 10 ^ p.2 := by
  have hlen : (digitsRead records i p).length ≤ p.2 := by
    refine (List.takeWhile_sublist _).length_le.trans ?_
    refine (List.length_filterMap_le _ _).trans ?_
    rw [List.length_range]
  exact lt_of_lt_of_le (ofDigitChars_lt fun c hc => List.mem_takeWhile_imp hc)
    (Nat.pow_le_pow_right (by decide) hlen)

theorem field_window_flatten {records : List Str} (h : ∀ r ∈ records, r.length = 28) {i : Nat}
    (hr : readsFrom i < 2 ^ 31) {p : Nat × Nat} (hp : p ∈ layout) :
    field (window records.flatten (startIdx i)) p =
      (List.range p.2).filterMap fun j => charAt records (readsFrom i + p.1 + j) := by
  have hb := (layout_bound p hp).1
  rw [window_startIdx, if_pos hr, field, List.drop_take, List.take_take,
    Nat.min_eq_left (by omega), List.drop_drop, take_drop_eq_filterMap]
  simp only [getElem?_flatten_records h]

section

variable {records : List Str} (h : ∀ r ∈ records, r.length = 28 ∧ LaidOut r) {i : Nat}
  (hi : i < records.length)

include h hi

/-- Every character read is a digit, but for the separators of the records. -/
theorem charAt_eq_some {j : Nat} (hj : j < 28) : ∃ c, charAt records (readsFrom i + j) = some c ∧
    if (readsFrom i + j) % 28 = 6 ∨ (readsFrom i + j) % 28 = 12 then c = '.'
    else c.isDigit = true := by
  have hle : readsFrom i ≤ i * 27 := Nat.mod_le _ _
  have hlt : (readsFrom i + j) / 28 < records.length := by omega
  have hlaid := (h _ (List.getElem_mem hlt)).2 ((readsFrom i + j) % 28) (Nat.mod_lt _ (by decide))
  rwa [charAt, List.getElem?_eq_getElem hlt, Option.bind_some]

/-- A field that starts at a separator does not read; any other reads as its first digits. -/
theorem strtol_field_flatten (hr : readsFrom i < 2 ^ 31) {p : Nat × Nat} (hp : p ∈ layout) :
    strtol (field (window records.flatten (startIdx i)) p) =
      if (readsFrom i + p.1) % 28 = 6 ∨ (readsFrom i + p.1) % 28 = 12 then none
      else some (numberRead records i p : Int) := by
  have hb := layout_bound p hp
  obtain ⟨c, hget, hchar⟩ := charAt_eq_some h hi (j := p.1) (by omega)
  have hfield : ∃ t, (List.range p.2).filterMap
      (fun j => charAt records (readsFrom i + p.1 + j)) = c :: t := by
    rw [show p.2 = (p.2 - 1) + 1 by omega, List.range_succ_eq_map, List.filterMap_cons,
      Nat.add_zero, hget]
    exact ⟨_, rfl⟩
  obtain ⟨t, ht⟩ := hfield
  rw [field_window_flatten (fun r hr' => (h r hr').1) hr hp, numberRead, digitsRead, ht]
  split_ifs at hchar ⊢
  · subst hchar
    rfl
  · exact strtol_of_isDigit_head hchar

theorem reads_window_flatten (hr : readsFrom i < 2 ^ 31) :
    Reads (window records.flatten (startIdx i)) ↔
      readsFrom i % 28 ∈ [0, 1, 2, 11, 15, 17, 20, 23, 26] := by
  have hfields : Reads (window records.flatten (startIdx i)) ↔
      ∀ p ∈ layout, (readsFrom i + p.1) % 28 ≠ 6 ∧ (readsFrom i + p.1) % 28 ≠ 12 := by
    apply forall₂_congr
    intro p hp
    rw [← strtol_isSome, strtol_field_flatten h hi hr hp]
    split_ifs with hsep
    · simp only [Option.isSome_none, Bool.false_eq_true, false_iff]
      omega
    · simp only [Option.isSome_some, true_iff]
      omega
  have hplaces : ∀ q < 28, (∀ p ∈ layout, (q + p.1) % 28 ≠ 6 ∧ (q + p.1) % 28 ≠ 12) ↔
      q ∈ [0, 1, 2, 11, 15, 17, 20, 23, 26] := by decide
  rw [hfields, ← hplaces (readsFrom i % 28) (Nat.mod_lt _ (by decide))]
  simp only [Nat.mod_add_mod]

theorem valueFields_window_flatten (hclear : Clear i) :
    valueFields (window records.flatten (startIdx i)) = fieldsOf (numberRead records i) := by
  have hread := (reads_window_flatten h hi hclear.1).mpr hclear.2
  have hvalue : ∀ p ∈ layout,
      value (window records.flatten (startIdx i)) p = numberRead records i p := by
    intro p hp
    have hp' := hread p hp
    rw [← strtol_isSome, strtol_field_flatten h hi hclear.1 hp] at hp'
    rw [value, strtol_field_flatten h hi hclear.1 hp]
    split_ifs at hp' ⊢
    · exact absurd hp' (by decide)
    · rfl
  simp only [layout, List.forall_mem_cons, List.not_mem_nil, false_implies, implies_true, and_true]
    at hvalue
  obtain ⟨h0, h1, h2, h3, h4, h5, h6, h7, h8, h9, h10, h11⟩ := hvalue
  rw [valueFields, fieldsOf, h0, h1, h2, h3, h4, h5, h6, h7, h8, h9, h10, h11]

/-- **What the decoder makes of the records for speaker `i`**: the numbers found from
character `27 * i` on, while record `i` starts at character `28 * i`. -/
theorem decodeHostData_flatten : decodeHostData pow records.flatten i =
    if Clear i ∧ Command (numberRead records i) then
      (fieldsOf (numberRead records i)).assign pow default
    else HostData.zero := by
  have hlen := length_flatten_records fun r hr => (h r hr).1
  rw [decodeHostData_eq_window (by omega)]
  by_cases hclear : Clear i
  · have hread := (reads_window_flatten h hi hclear.1).mpr hclear.2
    have hvalues := valueFields_window_flatten h hi hclear
    by_cases hcmd : Command (numberRead records i)
    · have hacc : Accepted (window records.flatten (startIdx i)) :=
        ⟨hread, by rwa [inRange_iff, hvalues, plausible_fieldsOf]⟩
      rw [decodeHostData_of_accepted hacc, hvalues, if_pos ⟨hclear, hcmd⟩]
    · rw [if_neg fun hc => hcmd hc.2]
      refine decodeHostData_of_not_accepted fun hacc => hcmd ?_
      rw [← plausible_fieldsOf, ← hvalues]
      exact inRange_iff.mp hacc.2
  · rw [if_neg fun hc => hclear hc.1]
    refine decodeHostData_of_not_accepted fun hacc => hclear ?_
    have hr : readsFrom i < 2 ^ 31 := by
      by_contra hr
      exact hacc.ne_nil (by rw [window_startIdx, if_neg hr])
    exact ⟨hr, (reads_window_flatten h hi hr).mp hacc.1⟩

end

theorem LaidOut.decodeHostData_eq {s : Str} (h : LaidOut s) : decodeHostData pow s 0 =
    if Command (number s) then (fieldsOf (number s)).assign pow default else HostData.zero := by
  have hvalues : valueFields s = fieldsOf (number s) := by
    have hvalue : ∀ p ∈ layout, value s p = number s p := fun p hp => h.value_eq hp
    simp only [layout, List.forall_mem_cons, List.not_mem_nil, false_implies, implies_true,
      and_true] at hvalue
    obtain ⟨h0, h1, h2, h3, h4, h5, h6, h7, h8, h9, h10, h11⟩ := hvalue
    rw [valueFields, fieldsOf, h0, h1, h2, h3, h4, h5, h6, h7, h8, h9, h10, h11]
  by_cases hcmd : Command (number s)
  · rw [decodeHostData_of_accepted (h.accepted_iff.mpr hcmd), hvalues, if_pos hcmd]
  · rw [decodeHostData_of_not_accepted (fun ha => hcmd (h.accepted_iff.mp ha)), if_neg hcmd]

/-- **When the records of several speakers decode independently**.  Where a separator
stands at the start of a field nothing is read for speaker `i`, and only a record that
is no command itself gives the same.  Elsewhere the numbers found from character
`27 * i` on must ask for what record `i` asks for. -/
theorem decodeHostData_flatten_iff (records : List Str)
    (h : ∀ r ∈ records, r.length = 28 ∧ LaidOut r) (i : Nat) (hi : i < records.length) :
    decodeHostData pow records.flatten i = decodeHostData pow records[i] 0 ↔
      if Clear i then
        (Command (numberRead records i) ↔ Command (number records[i])) ∧
          (Command (number records[i]) → SameCommand pow (numberRead records i) (number records[i]))
      else ¬ Command (number records[i]) := by
  have hlaid := (h _ (List.getElem_mem hi)).2
  rw [decodeHostData_flatten h hi, hlaid.decodeHostData_eq]
  by_cases hclear : Clear i
  · rw [if_pos hclear]
    have hsame : (fieldsOf (numberRead records i)).assign pow default =
        (fieldsOf (number records[i])).assign pow default ↔
          SameCommand pow (numberRead records i) (number records[i]) :=
      assign_fieldsOf_eq_iff (fun p _ => numberRead_lt records i p)
        (fun p hp => hlaid.number_lt hp) default
    by_cases hn : Command (numberRead records i)
    · by_cases hm : Command (number records[i])
      · rw [if_pos ⟨hclear, hn⟩, if_pos hm, hsame]
        simp [hn, hm]
      · rw [if_pos ⟨hclear, hn⟩, if_neg hm]
        simp [hn, hm, assign_fieldsOf_ne_zero hn]
    · by_cases hm : Command (number records[i])
      · rw [if_neg (fun hc => hn hc.2), if_pos hm]
        simp [hn, hm, (assign_fieldsOf_ne_zero hm).symm]
      · rw [if_neg (fun hc => hn hc.2), if_neg hm]
        simp [hn, hm]
  · rw [if_neg hclear, if_neg fun hc => hclear hc.1]
    by_cases hm : Command (number records[i])
    · rw [if_pos hm]
      simp [hm, (assign_fieldsOf_ne_zero hm).symm]
    · rw [if_neg hm]
      simp [hm]

/-- Two records of the layout, both accepted alone: the second is lost. -/
theorem decodeHostData_second_speaker :
    decodeHostData (fun _ _ => 1)
        ["001010.00090.000010010009010".toList, "011010.00090.000010010009010".toList].flatten 1 ≠
      decodeHostData (fun _ _ => 1) "011010.00090.000010010009010".toList 0 := by
  decide +kernel

/-- The first of them is read where it stands. -/
theorem decodeHostData_first_speaker :
    decodeHostData (fun _ _ => 1)
        ["001010.00090.000010010009010".toList, "011010.00090.000010010009010".toList].flatten 0 =
      decodeHostData (fun _ _ => 1) "001010.00090.000010010009010".toList 0 :=
  (decodeHostData_flatten_iff
      ["001010.00090.000010010009010".toList, "011010.00090.000010010009010".toList]
      (by decide) 0 (by decide)).mpr (by
    rw [if_pos (by decide)]
    exact ⟨by decide, fun _ => ⟨by decide, by decide, rfl⟩⟩)

/-- The record of the second speaker is always rejected. -/
example {records : List Str} (h : ∀ r ∈ records, r.length = 28 ∧ LaidOut r)
    (h2 : 1 < records.length) : decodeHostData pow records.flatten 1 = HostData.zero := by
  rw [decodeHostData_flatten h h2, if_neg fun hc => absurd hc.1 (by decide)]

end Orbiter.Toolbox
