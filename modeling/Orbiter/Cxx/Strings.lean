import Mathlib.Data.List.TakeWhile
import Mathlib.Data.Nat.Digits.Lemmas
import Mathlib.Tactic.NormNum
import Mathlib.Tactic.Positivity
import Mathlib.Tactic.Zify
import Mathlib.Tactic.SplitIfs

/-!
# `std::string`, `substr` and `stoi`

The pieces of the C++ string library that a fixed-width text protocol rests on:
`substr` throws when it starts behind the end, and `stoi` reads blanks, one
sign and a run of digits and ignores what follows.  The conversions between the
number types are here too.

* `stoi_of_isDigit`: on a run of one to nine digits `stoi` is the decimal value.
* `stoi_eq_ok_iff_strtol`: on at most nine characters `stoi` cannot overflow.
* `strtol_isSome`: the strings with a number are those that start, after blanks and a
  sign, with a digit (`startsNumber`).
* `stoi_padded`: **`stoi` undoes `padded`**, the fixed-width decimal layout.
* `contains_append_cons`: a search finds nothing across a separator.
* `foldl_ite_eq_getLast?`: of a chain of searches the last one that finds wins.
-/

namespace Orbiter.Cxx

/-- A `std::string`, character by character. -/
abbrev Str := List Char

/-- The exceptions of the string library, all caught as `std::exception`. -/
inductive Exc
  | outOfRange
  | invalidArgument
  deriving DecidableEq, Repr

/-- `s.substr(pos, n)`.  A negative `int` passed as `pos` becomes a `size_t`
behind the end of any string. -/
def substr (s : Str) (pos : Int) (n : Nat) : Except Exc Str :=
  if pos < 0 ∨ (s.length : Int) < pos then .error .outOfRange
  else .ok ((s.drop pos.toNat).take n)

/-- `isspace` in the C locale. -/
def isSpace (c : Char) : Bool := c == ' ' || (9 ≤ c.toNat && c.toNat ≤ 13)

/-- The digits `strtol` consumes, `none` when there is not even one. -/
def magnitude (s : Str) : Option Nat :=
  match s.takeWhile Char.isDigit with
  | [] => none
  | d :: ds => some (Nat.ofDigitChars 10 (d :: ds) 0)

def sign : Str → Int
  | '-' :: _ => -1
  | _ => 1

/-- The characters behind one optional sign. -/
def unsigned : Str → Str
  | '-' :: s => s
  | '+' :: s => s
  | s => s

/-- `strtol(s, nullptr, 10)` before its range check; `none` is "no conversion". -/
def strtol (s : Str) : Option Int :=
  let t := s.dropWhile isSpace
  (magnitude (unsigned t)).map fun n : Nat => sign t * n

/-- `std::stoi(s, nullptr, 10)`. -/
def stoi (s : Str) : Except Exc Int :=
  match strtol s with
  | none => .error .invalidArgument
  | some v => if v < -2 ^ 31 ∨ 2 ^ 31 ≤ v then .error .outOfRange else .ok v

/-- The conversion of an `int` to an unsigned type of `w` bits. -/
def toUnsigned (w : Nat) (v : Int) : Nat := (v % 2 ^ w).toNat

def toInt (n : Nat) : Int := (n : Int).bmod (2 ^ 32)

/-- The conversion of a floating-point value to an `int`: towards zero. -/
def truncate (x : ℚ) : Int := if 0 ≤ x then x.floor else -(-x).floor

/-- `s.find(t) != npos`. -/
def contains (s t : Str) : Bool := t <:+: s

def isXDigit (c : Char) : Bool := c.isDigit || ('a' ≤ c && c ≤ 'f') || ('A' ≤ c && c ≤ 'F')

/-! ### Digits -/

theorem not_isSpace_of_isDigit {c : Char} (h : c.isDigit = true) : isSpace c = false := by
  have hc := Char.isDigit_iff_toNat.mp h
  have h0 : '0'.toNat = 48 := rfl
  simp only [isSpace, Bool.or_eq_false_iff, Bool.and_eq_false_iff, decide_eq_false_iff_not]
  refine ⟨?_, Or.inr (by omega)⟩
  rw [beq_eq_false_iff_ne]
  rintro rfl
  exact absurd h (by decide)

theorem ofDigitChars_lt {ds : Str} (h : ∀ c ∈ ds, c.isDigit = true) :
    Nat.ofDigitChars 10 ds 0 < 10 ^ ds.length := by
  induction ds with
  | nil => simp
  | cons c ds ih =>
    have hc := Char.isDigit_iff_toNat.mp (h c (by simp))
    have h0 : '0'.toNat = 48 := rfl
    have h9 : '9'.toNat = 57 := rfl
    have hds := ih fun d hd => h d (by simp [hd])
    rw [Nat.ofDigitChars_cons, Nat.ofDigitChars_eq_ofDigitChars_zero, List.length_cons, pow_succ]
    have hle : c.toNat - '0'.toNat ≤ 9 := by omega
    have hmul : 10 ^ ds.length * (c.toNat - '0'.toNat) ≤ 10 ^ ds.length * 9 :=
      Nat.mul_le_mul_left _ hle
    rw [Nat.mul_zero, Nat.zero_add]
    omega

theorem sign_of_isDigit {d : Char} (ds : Str) (hd : d.isDigit = true) : sign (d :: ds) = 1 := by
  unfold sign
  split
  · rename_i h; simp only [List.cons.injEq] at h; rw [h.1] at hd; exact absurd hd (by decide)
  · rfl

theorem unsigned_of_isDigit {d : Char} (ds : Str) (hd : d.isDigit = true) :
    unsigned (d :: ds) = d :: ds := by
  unfold unsigned
  split
  · rename_i h; simp only [List.cons.injEq] at h; rw [h.1] at hd; exact absurd hd (by decide)
  · rename_i h; simp only [List.cons.injEq] at h; rw [h.1] at hd; exact absurd hd (by decide)
  · rfl

/-- A string that starts with a digit reads as its first run of digits. -/
theorem strtol_of_isDigit_head {d : Char} {ds : Str} (hd : d.isDigit = true) :
    strtol (d :: ds) = some (Nat.ofDigitChars 10 ((d :: ds).takeWhile Char.isDigit) 0 : Int) := by
  have hblank : (d :: ds).dropWhile isSpace = d :: ds := by
    rw [List.dropWhile_cons, not_isSpace_of_isDigit hd, if_neg (by simp)]
  simp only [strtol, hblank, unsigned_of_isDigit ds hd, sign_of_isDigit ds hd, magnitude,
    List.takeWhile_cons_of_pos hd, Option.map_some, one_mul]

theorem strtol_of_isDigit {ds : Str} (hne : ds ≠ []) (h : ∀ c ∈ ds, c.isDigit = true) :
    strtol ds = some (Nat.ofDigitChars 10 ds 0 : Int) := by
  cases ds with
  | nil => exact absurd rfl hne
  | cons d ds =>
    rw [strtol_of_isDigit_head (h d (by simp)), List.takeWhile_eq_self_iff.mpr h]

/-! ### How large a number can be -/

theorem magnitude_lt {s : Str} {n : Nat} (h : magnitude s = some n) : n < 10 ^ s.length := by
  unfold magnitude at h
  split at h
  · simp at h
  · rename_i d ds hs
    obtain rfl := Option.some.inj h
    have hall : ∀ c ∈ d :: ds, c.isDigit = true := by
      intro c hc; rw [← hs] at hc; exact List.mem_takeWhile_imp hc
    have hlen : (d :: ds).length ≤ s.length := by
      rw [← hs]; exact (List.takeWhile_sublist _).length_le
    exact lt_of_lt_of_le (ofDigitChars_lt hall) (Nat.pow_le_pow_right (by decide) hlen)

theorem natAbs_sign (s : Str) : (sign s).natAbs = 1 := by
  unfold sign; split <;> rfl

theorem unsigned_length_le (s : Str) : (unsigned s).length ≤ s.length := by
  unfold unsigned; split <;> simp

theorem strtol_natAbs_lt {s : Str} {v : Int} (h : strtol s = some v) :
    v.natAbs < 10 ^ s.length := by
  obtain ⟨n, hn, rfl⟩ := Option.map_eq_some_iff.mp h
  rw [Int.natAbs_mul, natAbs_sign, Int.natAbs_natCast, one_mul]
  have hlen : (unsigned (s.dropWhile isSpace)).length ≤ s.length :=
    (unsigned_length_le _).trans (List.dropWhile_sublist _).length_le
  exact lt_of_lt_of_le (magnitude_lt hn) (Nat.pow_le_pow_right (by decide) hlen)

/-- **Nine characters never overflow an `int`**, so `stoi` is `strtol` there. -/
theorem stoi_eq_ok_iff_strtol {s : Str} (hs : s.length ≤ 9) (v : Int) :
    stoi s = .ok v ↔ strtol s = some v := by
  rw [stoi]
  cases hv : strtol s with
  | none => simp
  | some w =>
    have hw := strtol_natAbs_lt hv
    have hpow : 10 ^ s.length ≤ 10 ^ 9 := Nat.pow_le_pow_right (by decide) hs
    have hr : ¬ (w < -2 ^ 31 ∨ 2 ^ 31 ≤ w) := by omega
    simp only [if_neg hr, Except.ok.injEq, Option.some.injEq]

theorem stoi_of_isDigit {ds : Str} (hne : ds ≠ []) (h : ∀ c ∈ ds, c.isDigit = true)
    (hlen : ds.length ≤ 9) : stoi ds = .ok (Nat.ofDigitChars 10 ds 0 : Int) :=
  (stoi_eq_ok_iff_strtol hlen _).mpr (strtol_of_isDigit hne h)

/-! ### What `stoi` accepts -/

/-- The string starts, after blanks and one optional sign, with a digit. -/
def startsNumber (s : Str) : Bool := (unsigned (s.dropWhile isSpace)).head?.any Char.isDigit

theorem magnitude_isSome (s : Str) : (magnitude s).isSome = s.head?.any Char.isDigit := by
  cases s with
  | nil => rfl
  | cons c t =>
    rw [magnitude]
    by_cases hc : c.isDigit = true
    · simp [hc]
    · simp [hc]

/-- **What has a number in front.** -/
theorem strtol_isSome (s : Str) : (strtol s).isSome = startsNumber s := by
  rw [strtol, Option.isSome_map, magnitude_isSome, startsNumber]

/-! ### The fixed-width layout -/

/-- `n` in decimal, filled with leading zeros to `w` characters. -/
def padded (w n : Nat) : Str := (Nat.toDigits 10 n).leftpad w '0'

theorem padded_length {w n : Nat} (hw : 0 < w) (hn : n < 10 ^ w) : (padded w n).length = w := by
  have := (Nat.length_toDigits_le_iff (b := 10) (by decide) hw).mpr hn
  simp only [padded, List.leftpad, List.length_append, List.length_replicate]
  omega

theorem padded_isDigit (w n : Nat) : ∀ c ∈ padded w n, c.isDigit = true := by
  intro c hc
  rcases List.mem_append.mp hc with h | h
  · rw [List.eq_of_mem_replicate h]; rfl
  · exact Nat.isDigit_of_mem_toDigits (by decide) (by decide) h

theorem ofDigitChars_padded (w n : Nat) : Nat.ofDigitChars 10 (padded w n) 0 = n := by
  rw [padded, List.leftpad, Nat.ofDigitChars_append, Nat.ofDigitChars_replicate_zero, Nat.mul_zero,
    Nat.ofDigitChars_ten_toDigits]

/-- **`stoi` undoes `padded`.** -/
theorem stoi_padded {w n : Nat} (hw : 0 < w) (hw9 : w ≤ 9) (hn : n < 10 ^ w) :
    stoi (padded w n) = .ok (n : Int) := by
  have hlen := padded_length hw hn
  have hne : padded w n ≠ [] := by
    intro h; rw [h, List.length_nil] at hlen; omega
  rw [stoi_of_isDigit hne (padded_isDigit w n) (by omega), ofDigitChars_padded]

/-! ### Conversions -/

theorem toUnsigned_lt (w : Nat) (v : Int) : toUnsigned w v < 2 ^ w := by
  have hlt := Int.emod_lt_of_pos v (show (0 : Int) < 2 ^ w by positivity)
  have hnonneg := Int.emod_nonneg v (show (2 : Int) ^ w ≠ 0 by positivity)
  have hcast : ((toUnsigned w v : Nat) : Int) < ((2 ^ w : Nat) : Int) := by
    rw [toUnsigned, Int.toNat_of_nonneg hnonneg]
    exact_mod_cast hlt
  exact_mod_cast hcast

theorem toUnsigned_of_lt {w n : Nat} (h : n < 2 ^ w) : toUnsigned w n = n := by
  rw [toUnsigned, Int.emod_eq_of_lt (by omega) (by exact_mod_cast h), Int.toNat_natCast]

theorem toInt_eq (n : Nat) : toInt n =
    if n % 2 ^ 32 < 2 ^ 31 then ((n % 2 ^ 32 : Nat) : Int)
    else ((n % 2 ^ 32 : Nat) : Int) - 2 ^ 32 := by
  have hmod : (n : Int) % ((2 ^ 32 : Nat) : Int) = ((n % 2 ^ 32 : Nat) : Int) := by norm_cast
  show (n : Int).bmod (2 ^ 32) = _
  rw [Int.bmod_def, hmod]
  generalize n % 2 ^ 32 = k
  split_ifs <;> omega

theorem truncate_natCast (n : Nat) : truncate (n : ℚ) = n := by
  rw [truncate, if_pos (by positivity), ← Int.cast_natCast, Rat.floor_intCast]

/-! ### Reading an integer out of a string -/

/-- `std::stoi(s.substr(pos, n), nullptr, 10)`. -/
def stoiSubstr (s : Str) (pos : Int) (n : Nat) : Except Exc Int := do
  stoi (← substr s pos n)

theorem stoi_nil : stoi [] = .error .invalidArgument := rfl

/-- Which exception is thrown aside, `stoiSubstr` reads the `n` characters from
`pos` on; behind the end there are none. -/
theorem stoiSubstr_eq_ok_iff {s : Str} {pos : Int} {n : Nat} {v : Int} :
    stoiSubstr s pos n = .ok v ↔ 0 ≤ pos ∧ stoi ((s.drop pos.toNat).take n) = .ok v := by
  unfold stoiSubstr substr
  by_cases h0 : pos < 0
  · have h : ¬ 0 ≤ pos := by omega
    simp [h0, h, bind, Except.bind]
  · by_cases hl : (s.length : Int) < pos
    · have hd : s.drop pos.toNat = [] := List.drop_eq_nil_of_le (by omega)
      simp [h0, hl, hd, stoi_nil, bind, Except.bind]
    · have h : 0 ≤ pos := by omega
      simp [h0, hl, h, bind, Except.bind]

/-! ### Searching -/

theorem contains_iff {s t : Str} : contains s t = true ↔ t <:+: s := decide_eq_true_iff

theorem contains_self (s : Str) : contains s s = true := contains_iff.mpr List.infix_rfl

theorem contains_eq_false {s t : Str} {c : Char} (ht : c ∈ t) (hs : c ∉ s) :
    contains s t = false := by
  rw [← Bool.not_eq_true, contains_iff]
  intro h
  exact hs (h.subset ht)

/-- **What is found around a separator is found on one side of it.** -/
theorem contains_append_cons {s t u : Str} {c : Char} (h : c ∉ t) :
    contains (s ++ c :: u) t = (contains s t || contains u t) := by
  have hnil : ∀ t' : Str, c ∉ t' → t' <+: c :: u → t' = [] := by
    intro t' hc hstart
    rcases List.prefix_cons_iff.mp hstart with hnil | ⟨v, rfl, -⟩
    · exact hnil
    · exact absurd List.mem_cons_self hc
  rw [Bool.eq_iff_iff, Bool.or_eq_true, contains_iff, contains_iff, contains_iff,
    List.infix_append_iff, List.infix_cons_iff]
  constructor
  · rintro (hs | (hstart | hu) | ⟨t₁, t₂, rfl, hs, hstart⟩)
    · exact Or.inl hs
    · rw [hnil t h hstart]
      exact Or.inl List.nil_infix
    · exact Or.inr hu
    · rw [hnil t₂ (fun hc => h (List.mem_append_right t₁ hc)) hstart, List.append_nil]
      exact Or.inl hs.isInfix
  · rintro (hs | hu)
    · exact Or.inl hs
    · exact Or.inr (Or.inl (Or.inr hu))

/-- In a chain of `if`s over one variable the last one that holds wins. -/
theorem foldl_ite_eq_getLast? {α β : Type*} (p : α → Bool) (f : α → β) (b : β) (l : List α) :
    l.foldl (fun acc x => if p x then f x else acc) b =
      ((l.filter p).getLast?.map f).getD b := by
  induction l using List.reverseRecOn with
  | nil => rfl
  | append_singleton l x ih =>
    rw [List.foldl_append, List.foldl_cons, List.foldl_nil, List.filter_append]
    cases hx : p x with
    | false => rw [if_neg (by simp), ih, List.filter_singleton, hx, cond_false, List.append_nil]
    | true =>
      rw [if_pos rfl, List.filter_singleton, hx, cond_true, List.getLast?_concat]
      rfl

/-! ### Strings in a buffer -/

def nul : Char := Char.ofNat 0

/-- The `std::string` of a `char` buffer. -/
def cString (buffer : Str) : Str := buffer.takeWhile fun c => c ≠ nul

/-- A buffer ends at its first terminator. -/
theorem cString_append_nul {s : Str} (h : nul ∉ s) (rest : Str) :
    cString (s ++ nul :: rest) = s := by
  have hall : ∀ c ∈ s, (decide (c ≠ nul)) = true := by
    intro c hc
    rw [decide_eq_true_iff]
    rintro rfl
    exact h hc
  rw [cString, List.takeWhile_append_of_pos hall, List.takeWhile_cons_of_neg (by simp),
    List.append_nil]

end Orbiter.Cxx
