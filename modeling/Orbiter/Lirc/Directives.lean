import Orbiter.Lirc.Response

/-!
# The directives of the lirc daemon

What `get_command` makes of a line: the directive, and for those that send the remote and
the code `parse_rc` finds behind it.  `irsend` prints such lines.

* `directive`: the command in a line.
* `directive_irsend`: what becomes of a line of `irsend`.
* `sendOnce_iff`: **a count is understood exactly when the daemon allows it**; a larger one
  may be taken for a smaller one where a `long` has more than 32 bits.
-/

namespace Orbiter.Lirc

open Cxx

/-! ### The C library -/

/-- `strtok`: the token, and what is left to look at. -/
def strtok (s delim : Str) : Option Str × Str :=
  let t := s.dropWhile fun c => c ∈ delim
  if t = [] then (none, [])
  else (some (t.takeWhile fun c => c ∉ delim), (t.dropWhile fun c => c ∉ delim).drop 1)

/-- What `strtol` and `strtoul` read: the sign, the magnitude, and what is behind them. -/
def readLong (s : Str) : Option (Int × Nat × Str) :=
  let t := s.dropWhile isSpace
  let ds := (unsigned t).takeWhile Char.isDigit
  if ds = [] then none
  else some (sign t, Nat.ofDigitChars 10 ds 0, (unsigned t).drop ds.length)

/-- The range of a `long`. -/
def clampLong (bits : Nat) (v : Int) : Int := max (-2 ^ (bits - 1)) (min v (2 ^ (bits - 1) - 1))

/-- `strtol(s, &endptr, 10)`: the value and what `endptr` points to. -/
def strtolEnd (bits : Nat) (s : Str) : Int × Str :=
  match readLong s with
  | none => (0, s)
  | some (sign, n, endptr) => (clampLong bits (sign * n), endptr)

/-- `strtoul(s, &endptr, 10)`; with a minus sign the value is negated. -/
def strtoulEnd (bits : Nat) (s : Str) : Nat × Str :=
  match readLong s with
  | none => (0, s)
  | some (sign, n, endptr) =>
    (if 2 ^ bits ≤ n then 2 ^ bits - 1 else toUnsigned bits (sign * n), endptr)

def printInt (v : Int) : Str :=
  if v < 0 then '-' :: Nat.toDigits 10 v.natAbs else Nat.toDigits 10 v.natAbs

/-! ### The remotes -/

/-- `struct ir_ncode`: its name, and whether other codes follow in its sequence. -/
structure Code where
  name : Str
  hasNext : Bool
  deriving DecidableEq

/-- `struct ir_remote`. -/
structure Remote where
  name : Str
  codes : List Code
  minRepeat : Int
  deriving DecidableEq

/-- The remotes, whether the hardware sends, `repeat_max`, and the bits of a `long`. -/
structure Config where
  remotes : List Remote
  sendMode : Bool
  repeatMax : Nat
  longBits : Nat
  deriving DecidableEq

def lircInternalRemote : Remote := ⟨"lirc".toList, [], 0⟩

def ncodeEof : Code := ⟨"__EOF".toList, false⟩

def getIrRemote (remotes : List Remote) (name : Str) : Option Remote :=
  if name = "lirc".toList then some lircInternalRemote
  else remotes.find? fun all => strcasecmp all.name name

def getCodeByName (remote : Remote) (name : Str) : Option Code :=
  if remote.codes = [] then none
  else if remote.name = "lirc".toList then
    if name = "__EOF".toList then some ncodeEof else none
  else remote.codes.find? fun all => strcasecmp all.name name

/-! ### The arguments -/

def whiteSpace : Str := [' ', '\t']

def argCheck (n : Nat) (remote : Option Remote) (code : Option Code) (reps : Nat) :
    Except Str (Option Remote × Option Code × Nat) :=
  if 0 < n ∧ remote = none then .error "remote missing".toList
  else if 1 < n ∧ code = none then .error "code missing".toList
  else .ok (remote, code, reps)

def tooManyRepeats (cfg : Config) (reps : Nat) : Str :=
  "too many repeats: \"".toList ++ printInt (toInt reps) ++ "\" > \"".toList ++
    Nat.toDigits 10 cfg.repeatMax ++ ['"']

/-- The repeats, an `unsigned int`, and what is left behind them. -/
def parseReps (cfg : Config) (s : Str) : Except Str (Nat × Str) :=
  match strtok s whiteSpace with
  | (none, s) => .ok (2 ^ 32 - 1, s)
  | (some repeats, s) =>
    let (v, endptr) := strtolEnd cfg.longBits repeats
    let reps := toUnsigned 32 v
    if endptr ≠ [] then .error "bad send packet (reps/eol)".toList
    else if cfg.repeatMax < reps then .error (tooManyRepeats cfg reps)
    else .ok (reps, s)

def parseEnd (n : Nat) (remote : Remote) (code : Code) (reps : Nat) (s : Str) :
    Except Str (Option Remote × Option Code × Nat) :=
  if (strtok s whiteSpace).1 ≠ none then .error "bad send packet (trailing ws)".toList
  else argCheck n (some remote) (some code) reps

/-- `parse_rc`; the error is the text it sends. -/
def parseRc (cfg : Config) (arguments : Option Str) (wantsReps : Bool) (n : Nat) :
    Except Str (Option Remote × Option Code × Nat) :=
  match arguments with
  | none => argCheck n none none 0
  | some arguments =>
    match strtok arguments whiteSpace with
    | (none, _) => argCheck n none none 0
    | (some name, s) =>
      match getIrRemote cfg.remotes name with
      | none => .error ("unknown remote: \"".toList ++ name ++ ['"'])
      | some remote =>
        match strtok s whiteSpace with
        | (none, _) => argCheck n (some remote) none 0
        | (some command, s) =>
          match getCodeByName remote command with
          | none => .error ("unknown command: \"".toList ++ command ++ ['"'])
          | some code =>
            if wantsReps then
              match parseReps cfg s with
              | .error text => .error text
              | .ok (reps, s) => parseEnd n remote code reps s
            else parseEnd n remote code 0 s

/-! ### The directive -/

/-- What a line asks for: an error at once, something that repeats or stops, or something
else that is answered at once. -/
inductive Directive
  | refuse (text : Str)
  | sendOnce (remote : Remote) (code : Code) (reps : Nat)
  | sendStart (remote : Remote) (code : Code)
  | sendStop (remote : Option Remote) (code : Option Code)
  | other
  deriving DecidableEq

/-- The head of `send_core`. -/
def parseSend (cfg : Config) (arguments : Option Str) (once : Bool) : Directive :=
  if cfg.sendMode = false then .refuse "hardware does not support sending".toList
  else
    match parseRc cfg arguments once 2 with
    | .error text => .refuse text
    | .ok (some remote, some code, reps) =>
      if once then .sendOnce remote code reps else .sendStart remote code
    -- does not happen: `parse_rc` was told to want both
    | .ok _ => .other

/-- The names in `directives` whose functions do not touch the repeating. -/
def otherDirectives : List Str :=
  ["LIST", "SET_INPUTLOG", "DRV_OPTION", "VERSION", "SET_TRANSMITTERS", "SIMULATE"].map
    String.toList

def removeCr (line : Str) : Str := if line.getLast? = some '\r' then line.dropLast else line

/-- The command in a line of `get_command`. -/
def directive (cfg : Config) (line : Str) : Directive :=
  match strtok (removeCr line) whiteSpace with
  | (none, _) => .refuse "bad send packet".toList
  | (some name, s) =>
    let arguments := (strtok s []).1
    if strcasecmp name "SEND_ONCE".toList then parseSend cfg arguments true
    else if strcasecmp name "SEND_START".toList then parseSend cfg arguments false
    else if strcasecmp name "SEND_STOP".toList then
      match parseRc cfg arguments false 0 with
      | .error text => .refuse text
      | .ok (remote, code, _) => .sendStop remote code
    else if otherDirectives.any (strcasecmp name) then .other
    else .refuse ("unknown directive: \"".toList ++ name ++ ['"'])

/-! ### The lines of `irsend` -/

def irsendCount (bits : Nat) (optarg : Str) : Option Nat :=
  let (count, endptr) := strtoulEnd bits optarg
  if optarg = [] ∨ endptr ≠ [] then none else some count

/-- A line `irsend` sends for a code; the count is only printed when it is above one. -/
def irsendLine (name remote code : Str) (count : Nat) : Str :=
  name ++ ' ' :: (remote ++ ' ' :: (code ++
    if strcasecmp name "SEND_ONCE".toList ∧ 1 < count then ' ' :: Nat.toDigits 10 count else []))

/-- One argument of the shell, without white space. -/
structure Word (w : Str) : Prop where
  ne_nil : w ≠ []
  noSpace : ∀ c ∈ w, c ∉ whiteSpace
  noCr : '\r' ∉ w

theorem word_of_all {w : Str}
    (h : (!w.isEmpty && w.all fun c => !whiteSpace.contains c && c != '\r') = true) : Word w := by
  rw [Bool.and_eq_true, List.all_eq_true] at h
  have hc : ∀ c ∈ w, c ∉ whiteSpace ∧ c ≠ '\r' := fun c hc => by simpa using h.2 c hc
  exact ⟨by simpa using h.1, fun c hcw => (hc c hcw).1, fun hcw => (hc _ hcw).2 rfl⟩

theorem Word.skip {w : Str} (h : Word w) (s : Str) :
    (w ++ s).dropWhile (fun c => c ∈ whiteSpace) = w ++ s := by
  obtain ⟨c, w, rfl⟩ := List.exists_cons_of_ne_nil h.ne_nil
  refine List.dropWhile_cons_of_neg ?_
  rw [decide_eq_true_iff]
  exact h.noSpace c List.mem_cons_self

theorem Word.token {w : Str} (h : Word w) (s : Str) :
    (w ++ s).takeWhile (fun c => c ∉ whiteSpace) =
        w ++ s.takeWhile (fun c => c ∉ whiteSpace) ∧
      (w ++ s).dropWhile (fun c => c ∉ whiteSpace) = s.dropWhile (fun c => c ∉ whiteSpace) := by
  have hall : ∀ c ∈ w, (decide (c ∉ whiteSpace)) = true := fun c hc =>
    decide_eq_true (h.noSpace c hc)
  exact ⟨List.takeWhile_append_of_pos hall, List.dropWhile_append_of_pos hall⟩

theorem strtok_word {w : Str} (h : Word w) (s : Str) :
    strtok (w ++ ' ' :: s) whiteSpace = (some w, s) := by
  obtain ⟨htake, hdrop⟩ := h.token (' ' :: s)
  rw [strtok, h.skip, htake, hdrop, if_neg (by simp), List.takeWhile_cons_of_neg (by decide),
    List.dropWhile_cons_of_neg (by decide), List.append_nil]
  rfl

theorem strtok_last {w : Str} (h : Word w) : strtok w whiteSpace = (some w, []) := by
  obtain ⟨htake, hdrop⟩ := h.token []
  rw [List.append_nil] at htake hdrop
  have hskip := h.skip []
  rw [List.append_nil] at hskip
  rw [strtok, hskip, htake, hdrop, if_neg h.ne_nil, List.takeWhile_nil, List.append_nil]
  rfl

theorem strtok_rest {s : Str} (h : s ≠ []) : strtok s [] = (some s, []) := by
  have hskip : s.dropWhile (fun c => c ∈ ([] : Str)) = s := by
    obtain ⟨c, s, rfl⟩ := List.exists_cons_of_ne_nil h
    exact List.dropWhile_cons_of_neg (by simp)
  have htake : s.takeWhile (fun c => c ∉ ([] : Str)) = s :=
    List.takeWhile_eq_self_iff.mpr (by simp)
  have hdrop : s.dropWhile (fun c => c ∉ ([] : Str)) = [] :=
    List.dropWhile_eq_nil_iff.mpr (by simp)
  rw [strtok, hskip, htake, hdrop, if_neg h]
  rfl

theorem word_toDigits (n : Nat) : Word (Nat.toDigits 10 n) where
  ne_nil := Nat.toDigits_ne_nil
  noSpace := by
    intro c hc hw
    have hdigit := isDigit_toDigits hc
    rcases List.mem_pair.mp hw with rfl | rfl
    · exact absurd hdigit (by decide)
    · exact absurd hdigit (by decide)
  noCr := fun hc => absurd (isDigit_toDigits hc) (by decide)

def understoodReps (bits count : Nat) : Nat := min count (2 ^ (bits - 1) - 1) % 2 ^ 32

theorem readLong_toDigits (n : Nat) : readLong (Nat.toDigits 10 n) = some (1, n, []) := by
  have hdigits : ∀ d ∈ Nat.toDigits 10 n, d.isDigit = true := fun d hd => isDigit_toDigits hd
  have hvalue : Nat.ofDigitChars 10 (Nat.toDigits 10 n) 0 = n := Nat.ofDigitChars_ten_toDigits
  cases hds : Nat.toDigits 10 n with
  | nil => exact absurd hds Nat.toDigits_ne_nil
  | cons c cs =>
    rw [hds] at hdigits hvalue
    have hc := hdigits c List.mem_cons_self
    have hspace : (c :: cs).dropWhile isSpace = c :: cs :=
      List.dropWhile_cons_of_neg (by rw [not_isSpace_of_isDigit hc]; simp)
    have hall : (c :: cs).takeWhile Char.isDigit = c :: cs :=
      List.takeWhile_eq_self_iff.mpr hdigits
    rw [readLong, hspace, unsigned_of_isDigit cs hc, hall, if_neg (by simp), hvalue,
      sign_of_isDigit cs hc, List.drop_length]

theorem strtolEnd_toDigits (bits n : Nat) :
    strtolEnd bits (Nat.toDigits 10 n) = (clampLong bits n, []) := by
  rw [strtolEnd, readLong_toDigits]
  dsimp only
  rw [one_mul]

theorem toUnsigned_clampLong (bits n : Nat) :
    toUnsigned 32 (clampLong bits n) = understoodReps bits n := by
  have hpos : 0 < 2 ^ (bits - 1) := Nat.two_pow_pos _
  have hcast : ((2 ^ (bits - 1) : Nat) : Int) = 2 ^ (bits - 1) := Nat.cast_pow 2 _
  rw [toUnsigned, clampLong, understoodReps, ← hcast]
  omega

theorem irsendCount_toDigits (bits n : Nat) :
    irsendCount bits (Nat.toDigits 10 n) = some (min n (2 ^ bits - 1)) := by
  rw [irsendCount, strtoulEnd, readLong_toDigits]
  dsimp only
  rw [if_neg (by simp [Nat.toDigits_ne_nil]), one_mul]
  split_ifs with h
  · rw [min_eq_right (by omega)]
  · rw [toUnsigned_of_lt (by omega), min_eq_left (by omega)]

theorem getLast?_append_word {w : Str} (h : Word w) (s : Str) :
    (s ++ w).getLast? ≠ some '\r' := by
  intro hlast
  rw [List.getLast?_append_of_ne_nil _ h.ne_nil] at hlast
  exact h.noCr (List.mem_of_getLast? hlast)

theorem parseRc_words {cfg : Config} {remote code : Str} {r : Remote} {c : Code}
    (hremote : Word remote) (hcode : Word code) (hr : getIrRemote cfg.remotes remote = some r)
    (hc : getCodeByName r code = some c) :
    parseRc cfg (some (remote ++ ' ' :: code)) true 2 = .ok (some r, some c, 2 ^ 32 - 1) := by
  rw [parseRc, strtok_word hremote]
  dsimp only
  rw [hr]
  dsimp only
  rw [strtok_last hcode]
  dsimp only
  rw [hc]
  rfl

theorem parseRc_count {cfg : Config} {remote code : Str} {r : Remote} {c : Code}
    (hremote : Word remote) (hcode : Word code) (hr : getIrRemote cfg.remotes remote = some r)
    (hc : getCodeByName r code = some c) (count : Nat) :
    parseRc cfg (some (remote ++ ' ' :: (code ++ ' ' :: Nat.toDigits 10 count))) true 2 =
      if cfg.repeatMax < understoodReps cfg.longBits count then
        .error (tooManyRepeats cfg (understoodReps cfg.longBits count))
      else .ok (some r, some c, understoodReps cfg.longBits count) := by
  have hreps : parseReps cfg (Nat.toDigits 10 count) =
      if cfg.repeatMax < understoodReps cfg.longBits count then
        .error (tooManyRepeats cfg (understoodReps cfg.longBits count))
      else .ok (understoodReps cfg.longBits count, []) := by
    rw [parseReps, strtok_last (word_toDigits count)]
    dsimp only
    rw [strtolEnd_toDigits]
    dsimp only
    rw [toUnsigned_clampLong, if_neg (by simp)]
  rw [parseRc, strtok_word hremote]
  dsimp only
  rw [hr]
  dsimp only
  rw [strtok_word hcode]
  dsimp only
  rw [hc]
  dsimp only
  rw [if_pos rfl, hreps]
  split_ifs
  · rfl
  · rfl

/-- **What becomes of a line of `irsend`.** -/
theorem directive_irsend {cfg : Config} (hsend : cfg.sendMode = true) {remote code : Str}
    {r : Remote} {c : Code} (hremote : Word remote) (hcode : Word code)
    (hr : getIrRemote cfg.remotes remote = some r) (hc : getCodeByName r code = some c)
    (count : Nat) : directive cfg (irsendLine "SEND_ONCE".toList remote code count) =
      if 1 < count then
        if cfg.repeatMax < understoodReps cfg.longBits count then
          .refuse (tooManyRepeats cfg (understoodReps cfg.longBits count))
        else .sendOnce r c (understoodReps cfg.longBits count)
      else .sendOnce r c (2 ^ 32 - 1) := by
  have hname : Word "SEND_ONCE".toList := word_of_all rfl
  have honce : strcasecmp "SEND_ONCE".toList "SEND_ONCE".toList = true := beq_self_eq_true _
  by_cases hcount : 1 < count
  · have hcr : removeCr (irsendLine "SEND_ONCE".toList remote code count) =
        "SEND_ONCE".toList ++ ' ' ::
          (remote ++ ' ' :: (code ++ ' ' :: Nat.toDigits 10 count)) := by
      rw [irsendLine, if_pos ⟨honce, hcount⟩, removeCr, if_neg]
      have hlast := getLast?_append_word (word_toDigits count)
        ("SEND_ONCE".toList ++ ' ' :: (remote ++ ' ' :: (code ++ [' '])))
      simpa using hlast
    rw [directive, hcr, strtok_word hname]
    dsimp only
    rw [if_pos honce, strtok_rest (by simp), parseSend, if_neg (by simp [hsend]),
      parseRc_count hremote hcode hr hc, if_pos hcount]
    by_cases hmany : cfg.repeatMax < understoodReps cfg.longBits count
    · rw [if_pos hmany, if_pos hmany]
    · rw [if_neg hmany, if_neg hmany]
      rfl
  · have hcr : removeCr (irsendLine "SEND_ONCE".toList remote code count) =
        "SEND_ONCE".toList ++ ' ' :: (remote ++ ' ' :: code) := by
      rw [irsendLine, if_neg (fun h => hcount h.2), removeCr, List.append_nil, if_neg]
      have hlast := getLast?_append_word hcode ("SEND_ONCE".toList ++ ' ' :: (remote ++ [' ']))
      simpa using hlast
    rw [directive, hcr, strtok_word hname]
    dsimp only
    rw [if_pos honce, strtok_rest (by simp), parseSend, if_neg (by simp [hsend]),
      parseRc_words hremote hcode hr hc, if_neg hcount]
    rfl

theorem understoodReps_of_lt {bits n : Nat} (h : n < 2 ^ (bits - 1)) :
    understoodReps bits n = n % 2 ^ 32 := by
  rw [understoodReps, min_eq_left (by omega)]

/-- A count that does not fit is refused, as the largest one that fits is. -/
theorem lt_understoodReps {bits n m : Nat} (h : 2 ^ (bits - 1) ≤ n)
    (hm : m < (2 ^ (bits - 1) - 1) % 2 ^ 32) : m < understoodReps bits n := by
  rw [understoodReps, min_eq_right (by omega)]
  exact hm

theorem understoodReps_full {bits : Nat} (h : 32 ≤ bits) {longBits m : Nat}
    (hm : m < (2 ^ (longBits - 1) - 1) % 2 ^ 32) : m < understoodReps longBits (2 ^ bits - 1) := by
  by_cases hlong : 2 ^ bits - 1 < 2 ^ (longBits - 1)
  · rw [understoodReps_of_lt hlong]
    obtain ⟨k, rfl⟩ := Nat.exists_eq_add_of_le h
    have hpos : 0 < 2 ^ k := Nat.two_pow_pos k
    rw [pow_add]
    omega
  · exact lt_understoodReps (by omega) hm

/-- **A count is understood exactly when the daemon allows it**, but one of at least
`2 ^ 32` is taken for its remainder instead of being refused when that is allowed and both
programs have it in a `long`. -/
theorem sendOnce_iff (cfg : Config) (remote code : Str) (r : Remote) (c : Code)
    (bits typed count : Nat) (hbits : 32 ≤ bits) (hlong : 32 ≤ cfg.longBits)
    (hsend : cfg.sendMode = true) (hmax : cfg.repeatMax < (2 ^ (cfg.longBits - 1) - 1) % 2 ^ 32)
    (hremote : Word remote) (hcode : Word code) (hr : getIrRemote cfg.remotes remote = some r)
    (hc : getCodeByName r code = some c) (htyped : 1 < typed)
    (hcount : irsendCount bits (Nat.toDigits 10 typed) = some count) :
    (directive cfg (irsendLine "SEND_ONCE".toList remote code count) = .sendOnce r c typed ↔
        typed ≤ cfg.repeatMax) ∧
      ((∃ reps, directive cfg (irsendLine "SEND_ONCE".toList remote code count) =
          .sendOnce r c reps) ↔
        typed < 2 ^ bits ∧ typed < 2 ^ (cfg.longBits - 1) ∧ typed % 2 ^ 32 ≤ cfg.repeatMax) := by
  have hbitsPow : 2 ^ 32 ≤ 2 ^ bits := Nat.pow_le_pow_right (by decide) hbits
  have hlongPow : 2 ^ 31 ≤ 2 ^ (cfg.longBits - 1) := Nat.pow_le_pow_right (by decide) (by omega)
  rw [irsendCount_toDigits, Option.some.injEq] at hcount
  rw [directive_irsend hsend hremote hcode hr hc, if_pos (by omega)]
  -- a count that fits both programs is read as its remainder, and any other is refused
  by_cases hfits : typed < 2 ^ bits ∧ typed < 2 ^ (cfg.longBits - 1)
  · obtain rfl : count = typed := by omega
    rw [understoodReps_of_lt hfits.2]
    by_cases hmany : cfg.repeatMax < count % 2 ^ 32
    · rw [if_pos hmany]
      exact ⟨iff_of_false (by simp) (by omega), iff_of_false (by simp) (by omega)⟩
    · rw [if_neg hmany]
      refine ⟨?_, iff_of_true ⟨_, rfl⟩ ⟨hfits.1, hfits.2, by omega⟩⟩
      have hsame : count % 2 ^ 32 = count ↔ count ≤ cfg.repeatMax := by omega
      rw [Directive.sendOnce.injEq, and_iff_right rfl, and_iff_right rfl, hsame]
  · have hmany : cfg.repeatMax < understoodReps cfg.longBits count := by
      by_cases hirsend : typed < 2 ^ bits
      · obtain rfl : count = typed := by omega
        exact lt_understoodReps (by omega) hmax
      · obtain rfl : count = 2 ^ bits - 1 := by omega
        exact understoodReps_full hbits hmax
    rw [if_pos hmany]
    exact ⟨iff_of_false (by simp) (by omega), iff_of_false (by simp) fun h => hfits ⟨h.1, h.2.1⟩⟩

def television : Config := ⟨[⟨"tv".toList, [⟨"KEY_OK".toList, false⟩], 0⟩], true, 600, 32⟩

def television64 : Config := { television with longBits := 64 }

theorem sendOnce_iff_television :
    (directive television64 (irsendLine "SEND_ONCE".toList "TV".toList "key_ok".toList
          (2 ^ 32 + 5)) =
        .sendOnce ⟨"tv".toList, [⟨"KEY_OK".toList, false⟩], 0⟩ ⟨"KEY_OK".toList, false⟩
          (2 ^ 32 + 5) ↔ 2 ^ 32 + 5 ≤ television64.repeatMax) ∧
      ((∃ reps, directive television64
          (irsendLine "SEND_ONCE".toList "TV".toList "key_ok".toList (2 ^ 32 + 5)) =
            .sendOnce ⟨"tv".toList, [⟨"KEY_OK".toList, false⟩], 0⟩ ⟨"KEY_OK".toList, false⟩
              reps) ↔
        2 ^ 32 + 5 < 2 ^ 64 ∧ 2 ^ 32 + 5 < 2 ^ (television64.longBits - 1) ∧
          (2 ^ 32 + 5) % 2 ^ 32 ≤ television64.repeatMax) :=
  sendOnce_iff television64 _ _ _ _ 64 (2 ^ 32 + 5) (2 ^ 32 + 5) (by decide) (by decide)
    (by decide) (by decide) (word_of_all rfl) (word_of_all rfl) (by decide) (by decide)
    (by decide) (by decide)

end Orbiter.Lirc
