import Orbiter.Cxx.Strings
import Orbiter.Machine.Frames

/-!
# The response of the lirc daemon

`lirc_command_run` sends a packet and reads lines until it has seen a response to it: the
packet itself between BEGIN and a status, perhaps data, and END.  Key lines and SIGHUP
packets may come before it; the automaton skips them.

* `Response.accept`: what one line does.
* `Reply.lines`: what the daemon sends.
-/

namespace Orbiter.Lirc

open Cxx

/-! ### The C library -/

def strcasecmp (s t : Str) : Bool := s.map Char.toLower == t.map Char.toLower

/-- `strncasecmp(s, t, n) == 0`. -/
def strncasecmp (s t : Str) (n : Nat) : Bool := strcasecmp (s.take n) (t.take n)

/-- `strcspn(s, "\n")`. -/
def strcspn (s : Str) : Nat := (s.takeWhile fun c => c ≠ '\n').length

/-- `strncpy(buffer, s, n)`, on the bytes of the buffer. -/
def strncpy (buffer s : Str) (n : Nat) : Str :=
  s.take n ++ List.replicate (n - s.length) nul ++ buffer.drop n

def digitValue (c : Char) : Nat :=
  if c.isDigit then c.toNat - 48
  else if 'a' ≤ c ∧ c ≤ 'z' then c.toNat - 87
  else if 'A' ≤ c ∧ c ≤ 'Z' then c.toNat - 55
  else 36

/-- The base that `strtoul` finds in front of the digits, and the rest. -/
def detectBase (s : Str) : Nat × Str :=
  match s with
  | '0' :: x :: d :: s' =>
    if (x = 'x' ∨ x = 'X') ∧ digitValue d < 16 then (16, d :: s') else (8, s)
  | '0' :: _ => (8, s)
  | _ => (10, s)

/-- `strtoul(s, &endptr, 0)`: the value and what `endptr` points to. -/
def strtoul (s : Str) : Nat × Str :=
  let t := s.dropWhile isSpace
  let (base, body) := detectBase (unsigned t)
  let ds := body.takeWhile fun c => digitValue c < base
  if ds = [] then (0, s)
  else
    let v := ds.foldl (fun v c => base * v + digitValue c) 0
    let v := if v < 2 ^ 64 then (sign t * v : Int) else 2 ^ 64 - 1
    (toUnsigned 64 v, body.drop ds.length)

/-! ### The client -/

inductive PacketState
  | pBegin
  | pMessage
  | pStatus
  | pData
  | pN
  | pDataN
  | pEnd
  deriving DecidableEq

/-- The values the command can return behind its `write`: 0, EIO or EPROTO. -/
inductive Status
  | success
  | eio
  | eproto
  deriving DecidableEq

/-- The locals of `lirc_command_run`, the bytes of `ctx->reply`, what was written to the
standard output, and the value returned. -/
structure Response where
  state : PacketState
  status : Status
  n : Nat
  dataN : Nat
  reply : Str
  stdout : Str
  result : Option Status
  deriving DecidableEq

namespace Response

def init : Response := ⟨.pBegin, .success, 0, 0, List.replicate 257 nul, [], none⟩

variable (packet : Str) (replyToStdout : Bool) (s : Response) (string : Str)

def return_ (status : Status) : Response := { s with result := some status }

def acceptMessage : Response :=
  if strncasecmp string packet string.length = false ∨ strcspn string ≠ strcspn packet then
    { s with state := .pBegin }
  else { s with state := .pStatus }

def acceptStatus : Response :=
  if strcasecmp string "SUCCESS".toList then { s with status := .success, state := .pData }
  else if strcasecmp string "END".toList then s.return_ .success
  else if strcasecmp string "ERROR".toList then { s with status := .eio, state := .pData }
  else s.return_ .eproto

def acceptN : Response :=
  let (v, endptr) := strtoul string
  if endptr ≠ [] then s.return_ .eproto
  else { s with dataN := v % 2 ^ 32, state := if v % 2 ^ 32 = 0 then .pEnd else .pDataN }

/-- A line of data: written out, or copied over the reply. -/
def acceptDataN : Response :=
  let s := if s.n = 0 then
      if replyToStdout then { s with stdout := s.stdout ++ ['\n'] }
      else { s with reply := nul :: s.reply.drop 1 }
    else s
  let s := if replyToStdout then { s with stdout := s.stdout ++ string ++ ['\n'] }
    else { s with reply := strncpy s.reply string (256 - (cString s.reply).length) }
  { s with n := s.n + 1, state := if s.n + 1 = s.dataN then .pEnd else .pDataN }

/-- What a line does, as long as the command has not returned. -/
def accept : Response :=
  if s.result ≠ none then s
  else if string = [] then s.return_ .eproto
  else
    match s.state with
    | .pBegin => if strcasecmp string "BEGIN".toList then { s with state := .pMessage } else s
    | .pMessage => s.acceptMessage packet string
    | .pStatus => s.acceptStatus string
    | .pData =>
      if strcasecmp string "END".toList then s.return_ s.status
      else if strcasecmp string "DATA".toList then { s with state := .pN }
      else s.return_ .eproto
    | .pN => s.acceptN string
    | .pDataN => s.acceptDataN replyToStdout string
    | .pEnd => if strcasecmp string "END".toList then s.return_ s.status else s.return_ .eproto

end Response

/-! ### The daemon -/

/-- A response: a success, perhaps with data, or an error with the lines of its text. -/
inductive Reply
  | success (data : List Str)
  | error (text : List Str)
  deriving DecidableEq

namespace Reply

/-- The data part, which is left out when there is none. -/
def dataLines (data : List Str) : List Str :=
  if data = [] then [] else "DATA".toList :: Nat.toDigits 10 data.length :: data

def data : Reply → List Str
  | .success data => data
  | .error text => text

def status : Reply → Status
  | .success _ => .success
  | .error _ => .eio

def keyword : Reply → Str
  | .success _ => "SUCCESS".toList
  | .error _ => "ERROR".toList

/-- The lines of `send_success`, `send_error`, `send_remote_list`, `send_remote`,
`send_name` and `version`. -/
def lines (message : Str) (reply : Reply) : List Str :=
  "BEGIN".toList :: message :: reply.keyword :: dataLines reply.data ++ ["END".toList]

end Reply

/-- What may come in between: a line of `broadcast_message`, or the packet of
`dosighup`. -/
inductive Noise
  | broadcast (line : Str)
  | sighup
  deriving DecidableEq

/-- The noise cannot be taken for a response to the message. -/
def Noise.Foreign (message : Str) : Noise → Prop
  | .broadcast line => line ≠ [] ∧ strcasecmp line "BEGIN".toList = false
  | .sighup => strcasecmp "SIGHUP".toList message = false

def Noise.lines : Noise → List Str
  | .broadcast line => [line]
  | .sighup => ["BEGIN".toList, "SIGHUP".toList, "END".toList]

/-! ### Numbers -/

theorem digitValue_of_isDigit {c : Char} (h : c.isDigit = true) : digitValue c = c.toNat - 48 := by
  rw [digitValue, if_pos h]

theorem isDigit_toDigits {n : Nat} {c : Char} (h : c ∈ Nat.toDigits 10 n) : c.isDigit = true :=
  Nat.isDigit_of_mem_toDigits (by decide) (by decide) h

/-- A number is printed without a zero in front. -/
theorem head_toDigits {n : Nat} (hn : 0 < n) {c : Char} {cs : Str}
    (h : Nat.toDigits 10 n = c :: cs) : c ≠ '0' := by
  rintro rfl
  have hdigits : ∀ d ∈ cs, d.isDigit = true := by
    intro d hd
    exact isDigit_toDigits (n := n) (by rw [h]; exact List.mem_cons_of_mem _ hd)
  have hvalue : Nat.ofDigitChars 10 ('0' :: cs) 0 = n := by
    rw [← h]
    exact Nat.ofDigitChars_ten_toDigits
  rw [Nat.ofDigitChars_cons] at hvalue
  have hlt : n < 10 ^ cs.length := by
    rw [← hvalue]
    exact ofDigitChars_lt hdigits
  cases cs with
  | nil =>
    rw [List.length_nil, pow_zero] at hlt
    omega
  | cons d cs =>
    have hlen := (Nat.length_toDigits_le_iff (by decide) (Nat.succ_pos _)).mpr hlt
    rw [h] at hlen
    exact absurd hlen (by simp)

theorem strtoul_toDigits {n : Nat} (hn : 0 < n) (hlt : n < 2 ^ 32) :
    strtoul (Nat.toDigits 10 n) = (n, []) := by
  have hdigits : ∀ d ∈ Nat.toDigits 10 n, d.isDigit = true := fun d hd => isDigit_toDigits hd
  have hvalue : Nat.ofDigitChars 10 (Nat.toDigits 10 n) 0 = n := Nat.ofDigitChars_ten_toDigits
  cases hds : Nat.toDigits 10 n with
  | nil => exact absurd hds Nat.toDigits_ne_nil
  | cons c cs =>
    have hhead := head_toDigits hn hds
    rw [hds] at hdigits hvalue
    have hc := hdigits c List.mem_cons_self
    have hspace : (c :: cs).dropWhile isSpace = c :: cs :=
      List.dropWhile_cons_of_neg (by rw [not_isSpace_of_isDigit hc]; simp)
    have hbase : detectBase (c :: cs) = (10, c :: cs) := by
      rw [detectBase]
      · rintro x d s' h
        exact absurd (List.cons.inj h).1 hhead
      · rintro s' h
        exact absurd (List.cons.inj h).1 hhead
    have hall : (c :: cs).takeWhile (fun d => digitValue d < 10) = c :: cs := by
      rw [List.takeWhile_eq_self_iff]
      intro d hd
      have hd' := Char.isDigit_iff_toNat.mp (hdigits d hd)
      have h9 : '9'.toNat = 57 := rfl
      rw [decide_eq_true_iff, digitValue_of_isDigit (hdigits d hd)]
      omega
    have hfold : (c :: cs).foldl (fun v c => 10 * v + digitValue c) 0 = n := by
      rw [← hvalue, Nat.ofDigitChars_eq_foldl]
      exact List.foldl_ext _ _ _ fun v d hd => by
        rw [digitValue_of_isDigit (hdigits d hd)]
        rfl
    rw [strtoul, hspace, unsigned_of_isDigit cs hc, hbase]
    dsimp only
    rw [hall, if_neg (by simp), hfold, if_pos (by omega), sign_of_isDigit cs hc, one_mul,
      toUnsigned_of_lt (by omega), List.drop_length]

/-! ### One line -/

theorem strcspn_packet {s : Str} (h : '\n' ∉ s) : strcspn (s ++ ['\n']) = s.length := by
  rw [strcspn, (Frames.dropWhile_of_notMem h []).2]

theorem strcspn_line {s : Str} (h : '\n' ∉ s) : strcspn s = s.length := by
  rw [strcspn, List.takeWhile_eq_self_iff.mpr]
  intro c hc
  rw [decide_eq_true_iff]
  rintro rfl
  exact h hc

variable {packet message : Str} {toStdout : Bool} {s : Response}

namespace Response

/-- A command that has returned reads no more. -/
theorem accept_of_result (h : s.result ≠ none) (string : Str) :
    s.accept packet toStdout string = s := by
  rw [accept, if_pos h]

theorem accept_of_none (h : s.result = none) {string : Str} (hne : string ≠ []) :
    s.accept packet toStdout string =
      match s.state with
      | .pBegin => if strcasecmp string "BEGIN".toList then { s with state := .pMessage } else s
      | .pMessage => s.acceptMessage packet string
      | .pStatus => s.acceptStatus string
      | .pData =>
        if strcasecmp string "END".toList then s.return_ s.status
        else if strcasecmp string "DATA".toList then { s with state := .pN }
        else s.return_ .eproto
      | .pN => s.acceptN string
      | .pDataN => s.acceptDataN toStdout string
      | .pEnd => if strcasecmp string "END".toList then s.return_ s.status
        else s.return_ .eproto := by
  rw [accept, if_neg (not_not.mpr h), if_neg hne]

theorem acceptMessage_self (hline : '\n' ∉ message) :
    s.acceptMessage (message ++ ['\n']) message = { s with state := .pStatus } := by
  have hcase : strncasecmp message (message ++ ['\n']) message.length = true := by
    rw [strncasecmp, List.take_length, List.take_left, strcasecmp, beq_self_eq_true]
  rw [acceptMessage, hcase, strcspn_line hline, strcspn_packet hline, if_neg (by simp)]

theorem acceptMessage_other {string : Str} (hline : '\n' ∉ message) (hstring : '\n' ∉ string)
    (h : strcasecmp string message = false) :
    s.acceptMessage (message ++ ['\n']) string = { s with state := .pBegin } := by
  rw [acceptMessage, strcspn_line hstring, strcspn_packet hline, if_pos]
  by_cases hlen : string.length = message.length
  · left
    rw [strncasecmp, List.take_length, hlen, List.take_left]
    exact h
  · exact Or.inr hlen

theorem accept_begin (h : s.result = none) (hs : s.state = .pBegin) :
    s.accept packet toStdout "BEGIN".toList = { s with state := .pMessage } := by
  rw [accept_of_none h (by decide), hs]
  exact if_pos (by decide)

theorem accept_skip (h : s.result = none) (hs : s.state = .pBegin) {string : Str}
    (hne : string ≠ []) (hb : strcasecmp string "BEGIN".toList = false) :
    s.accept packet toStdout string = s := by
  rw [accept_of_none h hne, hs]
  exact if_neg (by rw [hb]; exact Bool.false_ne_true)

theorem accept_end (h : s.result = none) (hs : s.state = .pData ∨ s.state = .pEnd) :
    s.accept packet toStdout "END".toList = s.return_ s.status := by
  rcases hs with hs | hs
  · rw [accept_of_none h (by decide), hs]
    exact if_pos (by decide)
  · rw [accept_of_none h (by decide), hs]
    exact if_pos (by decide)

/-! ### Noise -/

theorem foldl_noise (hline : '\n' ∉ message) (h : s.result = none) (hs : s.state = .pBegin)
    {noise : Noise} (hn : noise.Foreign message) :
    noise.lines.foldl (accept (message ++ ['\n']) toStdout) s = s := by
  cases noise with
  | broadcast line => exact accept_skip h hs hn.1 hn.2
  | sighup =>
    have hsighup : ({ s with state := .pMessage } : Response).accept (message ++ ['\n']) toStdout
        "SIGHUP".toList = s := by
      rw [accept_of_none (s := { s with state := .pMessage }) h (by decide)]
      refine (acceptMessage_other hline (by decide) hn).trans ?_
      rw [← hs]
    show ((s.accept _ toStdout "BEGIN".toList).accept _ toStdout "SIGHUP".toList).accept _ toStdout
      "END".toList = s
    rw [accept_begin h hs, hsighup]
    exact accept_skip h hs (by decide) (by decide)

theorem foldl_noises (hline : '\n' ∉ message) (h : s.result = none) (hs : s.state = .pBegin)
    {noises : List Noise} (hn : ∀ noise ∈ noises, noise.Foreign message) :
    (noises.flatMap Noise.lines).foldl (accept (message ++ ['\n']) toStdout) s = s := by
  induction noises with
  | nil => rfl
  | cons noise noises ih =>
    rw [List.flatMap_cons, List.foldl_append, foldl_noise hline h hs (hn _ List.mem_cons_self)]
    exact ih fun noise' hn' => hn _ (List.mem_cons_of_mem _ hn')

/-! ### Data -/

/-- The standard output behind lines of data, of which `n` came before. -/
def printed (n : Nat) (data : List Str) : Str :=
  (if n = 0 ∧ data ≠ [] then ['\n'] else []) ++ data.flatMap fun string => string ++ ['\n']

theorem printed_cons (n : Nat) (string : Str) (data : List Str) :
    printed n (string :: data) = printed n [string] ++ printed (n + 1) data := by
  by_cases hn : n = 0 <;> simp [printed, hn]

/-- The lines of data, copied over the reply one after the other. -/
def copied (n : Nat) : Str → List Str → Str
  | reply, [] => reply
  | reply, string :: data =>
    let reply := if n = 0 then nul :: reply.drop 1 else reply
    copied (n + 1) (strncpy reply string (256 - (cString reply).length)) data

theorem acceptDataN_eq (string : Str) : s.acceptDataN toStdout string =
    { s with
      n := s.n + 1
      state := if s.n + 1 = s.dataN then .pEnd else .pDataN
      reply := if toStdout then s.reply else copied s.n s.reply [string]
      stdout := if toStdout then s.stdout ++ printed s.n [string] else s.stdout } := by
  rw [acceptDataN]
  cases toStdout with
  | true => by_cases hn : s.n = 0 <;> simp [hn, printed]
  | false => by_cases hn : s.n = 0 <;> simp [hn, copied]

theorem foldl_data {data : List Str} (hdata : ∀ string ∈ data, string ≠ []) (h : s.result = none)
    (hs : s.state = .pDataN) (hn : s.dataN = s.n + data.length) :
    data.foldl (accept packet toStdout) s =
      { s with
        n := s.n + data.length
        state := if data = [] then .pDataN else .pEnd
        reply := if toStdout then s.reply else copied s.n s.reply data
        stdout := if toStdout then s.stdout ++ printed s.n data else s.stdout } := by
  induction data generalizing s with
  | nil =>
    cases toStdout <;> simp [printed, copied, ← hs]
  | cons string data ih =>
    have haccept : s.accept packet toStdout string = s.acceptDataN toStdout string := by
      rw [accept_of_none h (hdata string List.mem_cons_self), hs]
    rw [List.foldl_cons, haccept, acceptDataN_eq]
    rw [List.length_cons] at hn
    by_cases hlast : data = []
    · subst hlast
      rw [if_pos (by simpa using hn.symm)]
      rfl
    · have hpos := List.length_pos_iff.mpr hlast
      have hrest : ∀ string ∈ data, string ≠ [] :=
        fun string hstring => hdata _ (List.mem_cons_of_mem _ hstring)
      have hcount : s.dataN = s.n + 1 + data.length := by omega
      rw [if_neg (by omega)]
      refine (ih (s := { s with
        n := s.n + 1
        state := .pDataN
        reply := if toStdout then s.reply else copied s.n s.reply [string]
        stdout := if toStdout then s.stdout ++ printed s.n [string] else s.stdout })
        hrest h rfl hcount).trans ?_
      · rw [if_neg hlast, if_neg (List.cons_ne_nil _ _), printed_cons s.n string data,
          List.length_cons]
        cases toStdout with
        | true => simp only [if_true, List.append_assoc, Nat.add_assoc, Nat.add_comm 1]
        | false =>
          simp only [Bool.false_eq_true, if_false, Nat.add_assoc, Nat.add_comm 1]
          rfl

/-- Neighbouring lines of data fit the reply together. -/
def Fits : Str → List Str → Prop
  | _, [] => True
  | previous, string :: data => previous.length + string.length < 256 ∧ Fits string data

theorem cString_strncpy (buffer : Str) {string : Str} {n : Nat} (hnul : nul ∉ string)
    (hn : string.length < n) : cString (strncpy buffer string n) = string := by
  obtain ⟨k, hk⟩ : ∃ k, n - string.length = k + 1 := ⟨n - string.length - 1, by omega⟩
  rw [strncpy, List.take_of_length_le hn.le, hk, List.replicate_succ, List.append_assoc,
    List.cons_append]
  exact cString_append_nul hnul _

/-- **The reply is the last line of the data**, if neighbouring lines fit it. -/
theorem cString_copied {n : Nat} (reply : Str) {data : List Str}
    (hfits : Fits (if n = 0 then [] else cString reply) data)
    (hnul : ∀ string ∈ data, nul ∉ string) :
    cString (copied n reply data) = data.getLastD (cString reply) := by
  induction data generalizing n reply with
  | nil => rfl
  | cons string data ih =>
    have hstart : cString (if n = 0 then nul :: reply.drop 1 else reply) =
        if n = 0 then [] else cString reply := by
      split_ifs
      · exact cString_append_nul List.not_mem_nil _
      · rfl
    have hcopy := cString_strncpy (if n = 0 then nul :: reply.drop 1 else reply)
      (hnul string List.mem_cons_self)
      (show string.length < 256 - (if n = 0 then [] else cString reply).length from by
        have := hfits.1
        omega)
    rw [copied, List.getLastD_cons, hstart, ih _ ?_ ?_, hcopy]
    · rw [if_neg (Nat.succ_ne_zero n), hcopy]
      exact hfits.2
    · exact fun string' hs => hnul _ (List.mem_cons_of_mem _ hs)

/-! ### A whole response -/

theorem foldl_body (toStdout : Bool) (hmessage : message ≠ []) (hline : '\n' ∉ message)
    (h : s.result = none) (hs : s.state = .pBegin) (hn : s.n = 0) {reply : Reply}
    (hdata : ∀ string ∈ reply.data, string ≠ []) (hlt : reply.data.length < 2 ^ 32) :
    ("BEGIN".toList :: message :: reply.keyword :: Reply.dataLines reply.data).foldl
        (accept (message ++ ['\n']) toStdout) s =
      { s with
        state := if reply.data = [] then .pData else .pEnd
        status := reply.status
        n := reply.data.length
        dataN := if reply.data = [] then s.dataN else reply.data.length
        reply := if toStdout then s.reply else copied 0 s.reply reply.data
        stdout := if toStdout then s.stdout ++ printed 0 reply.data else s.stdout } := by
  have hself : ({ s with state := .pMessage } : Response).accept (message ++ ['\n']) toStdout
      message = { s with state := .pStatus } := by
    rw [accept_of_none (s := { s with state := .pMessage }) h hmessage]
    exact acceptMessage_self hline
  have hstatus : ({ s with state := .pStatus } : Response).accept (message ++ ['\n']) toStdout
      reply.keyword = { s with state := .pData, status := reply.status } := by
    cases reply with
    | success data =>
      show accept _ _ _ "SUCCESS".toList = _
      rw [accept_of_none (s := { s with state := .pStatus }) h (by decide)]
      exact if_pos (by decide)
    | error text =>
      show accept _ _ _ "ERROR".toList = _
      rw [accept_of_none (s := { s with state := .pStatus }) h (by decide)]
      show acceptStatus _ _ = _
      rw [acceptStatus, if_neg (by decide), if_neg (by decide), if_pos (by decide)]
      rfl
  rw [List.foldl_cons, accept_begin h hs, List.foldl_cons, hself, List.foldl_cons, hstatus]
  by_cases hnil : reply.data = []
  · rw [hnil, Reply.dataLines, if_pos rfl]
    cases toStdout <;> simp [printed, copied, hn]
  · have hpos := List.length_pos_iff.mpr hnil
    have hdatas : ({ s with state := .pData, status := reply.status } : Response).accept
        (message ++ ['\n']) toStdout "DATA".toList =
          { s with state := .pN, status := reply.status } := by
      rw [accept_of_none (s := { s with state := .pData, status := reply.status }) h (by simp)]
      show (if _ then _ else _) = _
      rw [if_neg (by decide), if_pos (by decide)]
    have hnumber : ({ s with state := .pN, status := reply.status } : Response).accept
        (message ++ ['\n']) toStdout (Nat.toDigits 10 reply.data.length) =
          { s with
            state := .pDataN
            status := reply.status
            dataN := reply.data.length } := by
      rw [accept_of_none (s := { s with state := .pN, status := reply.status }) h
        Nat.toDigits_ne_nil]
      show acceptN _ _ = _
      rw [acceptN, strtoul_toDigits hpos hlt]
      dsimp only
      rw [if_neg (not_not.mpr rfl), Nat.mod_eq_of_lt hlt, if_neg (by omega)]
    rw [Reply.dataLines, if_neg hnil, List.foldl_cons, hdatas, List.foldl_cons, hnumber]
    have hcount : reply.data.length = s.n + reply.data.length := by omega
    refine (foldl_data (s := { s with
      state := .pDataN
      status := reply.status
      dataN := reply.data.length }) hdata h rfl hcount).trans ?_
    rw [if_neg hnil, if_neg hnil, if_neg hnil, hn, Nat.zero_add]

structure Understood (reply : Reply) (toStdout : Bool) (s : Response) : Prop where
  result : s.result = some reply.status
  stdout : s.stdout = if toStdout then printed 0 reply.data else []
  reply : toStdout = false → Fits [] reply.data → cString s.reply = reply.data.getLastD []

/-- A message and what may come before and in its response. -/
structure Sound (message : Str) (noises : List Noise) (reply : Reply) : Prop where
  ne_nil : message ≠ []
  line : '\n' ∉ message
  foreign : ∀ noise ∈ noises, noise.Foreign message
  data : ∀ string ∈ reply.data, string ≠ [] ∧ nul ∉ string
  length : reply.data.length < 2 ^ 32

variable {noises : List Noise} {reply : Reply}

def heard (message : Str) (noises : List Noise) (reply : Reply) : List Str :=
  noises.flatMap Noise.lines ++ reply.lines message

/-- Before the last line nothing is returned, and with it the response is understood. -/
theorem understood_heard (h : Sound message noises reply) (toStdout : Bool) :
    (((heard message noises reply).dropLast).foldl (accept (message ++ ['\n']) toStdout)
        init).result = none ∧
      Understood reply toStdout
        ((heard message noises reply).foldl (accept (message ++ ['\n']) toStdout) init) := by
  have hlast : heard message noises reply = (noises.flatMap Noise.lines ++ ("BEGIN".toList ::
      message :: reply.keyword :: Reply.dataLines reply.data)) ++ ["END".toList] := by
    rw [heard, Reply.lines, List.append_assoc]
  have hnoises : (noises.flatMap Noise.lines).foldl (accept (message ++ ['\n']) toStdout) init =
      init := foldl_noises h.line rfl rfl h.foreign
  have hbody := foldl_body toStdout (s := init) h.ne_nil h.line rfl rfl rfl
    (fun string hs => (h.data string hs).1) h.length
  rw [← hnoises, ← List.foldl_append, hnoises] at hbody
  rw [hlast, List.dropLast_concat, hbody, List.foldl_append, hbody]
  refine ⟨rfl, ?_⟩
  rw [List.foldl_cons, List.foldl_nil, accept_end rfl (by
    by_cases hnil : reply.data = []
    · exact Or.inl (if_pos hnil)
    · exact Or.inr (if_neg hnil))]
  refine ⟨rfl, ?_, ?_⟩
  · cases toStdout <;> rfl
  · rintro rfl hfits
    exact cString_copied init.reply (n := 0) hfits fun string hs => (h.data string hs).2

theorem foldl_of_result (h : s.result ≠ none) (ls : List Str) :
    ls.foldl (accept packet toStdout) s = s := by
  induction ls with
  | nil => rfl
  | cons string ls ih => rw [List.foldl_cons, accept_of_result h, ih]

/-- **A response is understood when its last line is read, and not before**, whatever
comes in front of it and behind it. -/
theorem understood_of_prefix (h : Sound message noises reply) (toStdout : Bool) {ls more : List Str}
    (hp : ls <+: heard message noises reply ++ more) :
    (ls.length < (heard message noises reply).length ∧
        (ls.foldl (accept (message ++ ['\n']) toStdout) init).result = none) ∨
      ((heard message noises reply).length ≤ ls.length ∧
        Understood reply toStdout (ls.foldl (accept (message ++ ['\n']) toStdout) init)) := by
  obtain ⟨hnone, hall⟩ := understood_heard h toStdout
  rcases Nat.lt_or_ge ls.length (heard message noises reply).length with hlt | hge
  · refine Or.inl ⟨hlt, ?_⟩
    have hdrop : ls <+: (heard message noises reply).dropLast := by
      rw [List.dropLast_eq_take, List.prefix_iff_eq_take]
      rw [List.prefix_iff_eq_take, List.take_append_of_le_length hlt.le] at hp
      rw [List.take_take, min_eq_left (by omega)]
      exact hp
    obtain ⟨rest, hrest⟩ := hdrop
    by_contra hsome
    rw [← hrest, List.foldl_append, foldl_of_result hsome] at hnone
    exact hsome hnone
  · refine Or.inr ⟨hge, ?_⟩
    obtain ⟨rest, rfl⟩ : heard message noises reply <+: ls :=
      List.prefix_of_prefix_length_le (List.prefix_append _ _) hp hge
    rw [List.foldl_append, foldl_of_result (by rw [hall.result]; simp)]
    exact hall

end Response

end Orbiter.Lirc
