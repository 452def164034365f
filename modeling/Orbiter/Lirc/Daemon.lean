import Orbiter.Lirc.Directives
import Orbiter.Lirc.NextCode
import Orbiter.Machine.Run

/-!
# The repeats of the lirc daemon

`SEND_ONCE` with a count is answered when its repeats are through; `SEND_START` is answered
at once and repeats until `SEND_STOP`.  There is one repetition at a time.  The daemon does
not poll the client that waits for its answer, so that no answers are mixed up; but it finds
the clients that are ready by their places, which move when one is removed.  By its place it
also removes a client, when `get_command` fails.

* `Daemon.step`: what the clients, the timer and the daemon do.
* `scanned`: **who is looked at.**
* `clients_dismiss`, `broadcast_eq`: **who is removed.**
* `takes`: **what becomes of a command.**
* `dosigalrm_of_not_ends`, `dosigalrm_of_ends`: **what the timer may do.**
-/

namespace Orbiter.Lirc

open Cxx Frames

/-! ### The daemon -/

def maxClients : Nat := 256

/-- A command with its message, and a number that tells it from all others. -/
structure Request where
  number : Nat
  message : Str
  deriving DecidableEq

inductive Item
  | noise (noise : Noise)
  | answer (request : Request) (reply : Reply)
  deriving DecidableEq

/-- A connection: its commands, and what was written to it. -/
structure Client where
  fd : Nat
  asked : List Request
  wrote : List Item
  deriving DecidableEq

namespace Client

variable (c : Client)

def ask (r : Request) : Client := { c with asked := c.asked ++ [r] }
def write (item : Item) : Client := { c with wrote := c.wrote ++ [item] }

def answered : List Request :=
  c.wrote.filterMap fun
    | .noise _ => none
    | .answer request _ => some request

end Client

/-- The clients of `clis`, what the array holds behind them, the descriptors the last `poll`
found ready, with their places, as far as the loop has not come to them, the place it is at,
the number of commands so far, `repeat_remote` and `repeat_code`, the `repeat_countdown` of
that remote, `repeat_fd` and `repeat_message`, and the descriptor and the buffer of a
`get_command` under way. -/
structure Daemon where
  clients : List Client
  stale : List Nat
  pollFds : List (Nat × Nat)
  place : Nat
  requests : Nat
  repeating : Option (Remote × Code)
  countdown : Int
  repeatFd : Option Nat
  repeatMessage : Option Request
  reading : Option (Nat × Str)
  deriving DecidableEq

/-- What a command meets: the answer of a directive that does not repeat, whether the code
is sent, the `repeat_countdown` behind it, and whether the answer can be written. -/
structure Hardware where
  reply : Reply
  sent : Bool
  countdown : Int
  written : Bool
  deriving DecidableEq

/-- What the timer meets: whether another code came from the remote, whether the last code
of the sequence is sent, what sending takes off the countdown, whether it succeeds, and
whether the answer can be written. -/
structure Alarm where
  changed : Bool
  last : Bool
  lowered : Nat
  sent : Bool
  written : Bool
  deriving DecidableEq

namespace Daemon

inductive Act
  | accept (fd : Nat)
  | broadcast (noise : Noise) (lost : List Nat)
  | poll (ready : List Nat)
  | scan (bytes : ReadResult)
  | next (hardware : Hardware)
  | more (bytes : ReadResult)
  | alarm (alarm : Alarm)
  deriving DecidableEq

variable (cfg : Config) (s : Daemon)

def Connected (fd : Nat) : Prop := ∃ c ∈ s.clients, c.fd = fd

instance (fd : Nat) : Decidable (s.Connected fd) :=
  inferInstanceAs (Decidable (∃ c ∈ s.clients, c.fd = fd))

def onClient (fd : Nat) (f : Client → Client) : Daemon :=
  { s with clients := s.clients.map fun c => if c.fd = fd then f c else c }

def clis : List Nat := s.clients.map Client.fd

/-- `remove_client`: those behind move up, and the last one is left in its place as well. -/
def removeClient (fd : Nat) : Daemon :=
  { s with
    clients := s.clients.filter fun c => c.fd ≠ fd
    stale := if s.Connected fd then s.clis.getLast?.toList ++ s.stale else s.stale }

/-- Who is in the place that the loop is at by now. -/
def inPlace : Option Nat := (s.clis ++ s.stale)[s.place]?

/-- `mywaitfordata` removes the client, when `get_command` fails. -/
def dismiss : Daemon :=
  match s.inPlace with
  | some fd => s.removeClient fd
  | none => s

/-- `send_success` and `send_error`. -/
def answer (fd : Nat) (r : Request) (reply : Reply) (written : Bool) : Bool × Daemon :=
  if written then (true, s.onClient fd (Client.write · (.answer r reply))) else (false, s)

/-- `send_core` behind `parse_rc`, with the repeats when it is called for `SEND_ONCE`. -/
def sendCore (fd : Nat) (r : Request) (hw : Hardware) (remote : Remote) (code : Code)
    (reps : Option Nat) : Bool × Daemon :=
  if s.repeating ≠ none then
    s.answer fd r (.error [(if reps.isSome then "busy: repeating" else "already repeating").toList])
      hw.written
  else if hw.sent = false then s.answer fd r (.error ["transmission failed".toList]) hw.written
  else
    match reps with
    | some reps =>
      let countdown := max hw.countdown (toInt reps)
      if 0 < countdown ∨ code.hasNext = true then
        (true,
          { s with
            repeating := some (remote, code)
            countdown := countdown
            repeatMessage := some r
            repeatFd := some fd })
      else { s with countdown := countdown }.answer fd r (.success []) hw.written
    | none =>
      let countdown := toInt cfg.repeatMax
      if 0 < countdown ∨ code.hasNext = true then
        if hw.written then
          { s with repeating := some (remote, code), countdown := countdown }.answer fd r
            (.success []) true
        else (false, { s with countdown := countdown })
      else { s with countdown := countdown }.answer fd r (.success []) hw.written

/-- The repeats done so far. -/
def done : Int := toInt (toUnsigned 32 (cfg.repeatMax - s.countdown))

/-- `send_stop` behind `parse_rc`. -/
def sendStop (fd : Nat) (r : Request) (hw : Hardware) (remote : Option Remote)
    (code : Option Code) : Bool × Daemon :=
  match s.repeating with
  | some (repeatRemote, repeatCode) =>
    if remote.any fun remote => !strcasecmp remote.name repeatRemote.name then
      s.answer fd r (.error ["specified remote does not match".toList]) hw.written
    else if code.any fun code => !strcasecmp code.name repeatCode.name then
      s.answer fd r (.error ["specified code does not match".toList]) hw.written
    else if s.done cfg < repeatRemote.minRepeat then
      { s with countdown := repeatRemote.minRepeat - s.done cfg }.answer fd r (.success [])
        hw.written
    else { s with repeating := none }.answer fd r (.success []) hw.written
  | none => s.answer fd r (.error ["not repeating".toList]) hw.written

/-- A line of `get_command`, which is the number-th command. -/
def obey (fd : Nat) (line : Str) (hw : Hardware) : Bool × Daemon :=
  let r : Request := ⟨s.requests, line⟩
  let s := { s.onClient fd (Client.ask · r) with requests := s.requests + 1 }
  match directive cfg line with
  | .refuse text => s.answer fd r (.error [text]) hw.written
  | .other => s.answer fd r hw.reply hw.written
  | .sendOnce remote code reps => s.sendCore cfg fd r hw remote code (some reps)
  | .sendStart remote code => s.sendCore cfg fd r hw remote code none
  | .sendStop remote code => s.sendStop cfg fd r hw remote code

/-- The first line of the buffer, and what is behind it. -/
def firstLine (b : Str) : Option (Str × Str) :=
  (takeFrame '\n' (cString b)).map fun x => (x.1.dropLast, b.drop x.1.length)

/-- `get_command` goes on with a buffer: one without a line is a bad packet. -/
def readOn (fd : Nat) (b : Str) : Daemon :=
  if (firstLine b).isSome then { s with reading := some (fd, b) }
  else { s.dismiss with reading := none }

/-- The answer for the client that waits, behind the repeats. -/
def answerRepeat (reply : Reply) (written : Bool) : Daemon :=
  match s.repeatFd, s.repeatMessage with
  | some fd, some r => (s.answer fd r reply written).2
  | _, _ => s

/-- The countdown behind one more repeat. -/
def lowered (code : Code) (alarm : Alarm) : Int :=
  s.countdown - (if code.hasNext = false ∨ alarm.last = true then 1 else 0) - alarm.lowered

def dosigalrm (alarm : Alarm) : Daemon :=
  match s.repeating with
  | none => s
  | some (_, code) =>
    if alarm.changed then
      { s.answerRepeat (.error ["repeating interrupted".toList]) alarm.written with
        repeating := none, repeatFd := none, repeatMessage := none }
    else
      if alarm.sent = true ∧ 0 < s.lowered code alarm then
        { s with countdown := s.lowered code alarm }
      else if s.repeatFd = none then { s with repeating := none }
      else
        { s.answerRepeat (.success []) alarm.written with
          repeating := none, repeatFd := none, repeatMessage := none }

/-- `mywaitfordata` is behind the clients, and in front of the signals. -/
def Idle : Prop := s.reading = none ∧ s.pollFds = []

instance : Decidable s.Idle := inferInstanceAs (Decidable (s.reading = none ∧ s.pollFds = []))

/-- `add_client`: the kernel gives no descriptor twice. -/
def accept (fd : Nat) : Daemon :=
  if s.Idle ∧ ¬ s.Connected fd ∧ s.clients.length < maxClients then
    { s with clients := s.clients ++ [⟨fd, [], []⟩], stale := s.stale.drop 1 }
  else s

/-- `broadcast_message`: the lost clients are removed, one after the other. -/
def broadcast (noise : Noise) (lost : List Nat) : Daemon :=
  let s := (s.clis.filter fun fd => fd ∈ lost).foldl removeClient s
  { s with clients := s.clients.map (Client.write · (.noise noise)) }

def poll (ready : List Nat) : Daemon :=
  if s.Idle then
    { s with
      pollFds := (s.clients.map Client.fd).zipIdx.filter fun x =>
        x.1 ∈ ready ∧ s.repeatFd ≠ some x.1 }
  else s

def getCommand (fd : Nat) : ReadResult → Daemon
  | .bytes b => s.readOn fd (b.take packetSize)
  | .again => s
  | .failed => s

/-- `mywaitfordata` comes to the next place that was ready, whoever is there by now.  The
flag of a place is cleared, so a place that moves up is not looked at again. -/
def scan (bytes : ReadResult) : Daemon :=
  match s.reading, s.pollFds with
  | none, (_, i) :: pollFds =>
    match s.clients[i]? with
    | some c => { s with pollFds := pollFds, place := i }.getCommand c.fd bytes
    | none => { s with pollFds := [] }
  | _, _ => s

def next (hw : Hardware) : Daemon :=
  match s.reading with
  | none => s
  | some (fd, b) =>
    match firstLine b with
    | none => s
    | some (line, rest) =>
      match s.obey cfg fd line hw with
      | (true, s) => { s with reading := if rest = [] then none else some (fd, rest) }
      | (false, s) => { s.dismiss with reading := none }

/-- `get_command` reads behind the last line; a timeout is taken for the end. -/
def more (bytes : ReadResult) : Daemon :=
  match s.reading with
  | none => s
  | some (fd, b) =>
    if (firstLine b).isSome then s
    else
      match bytes with
      | .bytes b' =>
        let b' := b'.take (packetSize - b.length)
        if b' = [] then { s.dismiss with reading := none } else s.readOn fd (b ++ b')
      | .again => { s with reading := none }
      | .failed => { s with reading := none }

def step : Act → Daemon
  | .accept fd => s.accept fd
  | .broadcast noise lost => s.broadcast noise lost
  | .poll ready => s.poll ready
  | .scan bytes => s.scan bytes
  | .next hw => s.next cfg hw
  | .more bytes => s.more bytes
  | .alarm alarm => if s.Idle then s.dosigalrm alarm else s

end Daemon

def lircd (cfg : Config) : Machine Daemon Daemon.Act where
  init := ⟨[], [], [], 0, 0, none, 0, none, none, none⟩
  step := Daemon.step cfg

namespace Daemon

variable {cfg : Config} {s : Daemon}

/-! ### Who is removed -/

theorem clis_onClient (s : Daemon) (fd : Nat) {f : Client → Client} (hf : ∀ c, (f c).fd = c.fd) :
    (s.onClient fd f).clis = s.clis := by
  rw [clis, clis, onClient, List.map_map]
  refine List.map_congr_left fun c _ => ?_
  show (if c.fd = fd then f c else c).fd = c.fd
  split_ifs
  · exact hf c
  · rfl

theorem clients_dismiss (s : Daemon) :
    s.dismiss.clients = s.clients.filter fun c => s.inPlace ≠ some c.fd := by
  rw [dismiss]
  cases s.inPlace with
  | none => exact (List.filter_eq_self.mpr fun c _ => by simp).symm
  | some fd =>
    refine List.filter_congr fun c _ => ?_
    rw [decide_eq_decide, ne_comm, ne_eq, ne_eq, Option.some.injEq]

/-- Nothing but `clis` changes. -/
theorem dismiss_eq (s : Daemon) :
    ∃ stale, s.dismiss = { s with clients := s.dismiss.clients, stale := stale } := by
  rw [dismiss]
  cases s.inPlace with
  | none => exact ⟨s.stale, rfl⟩
  | some fd => exact ⟨_, rfl⟩

theorem foldl_removeClient (s : Daemon) (fds : List Nat) :
    ∃ stale, fds.foldl removeClient s =
      { s with clients := s.clients.filter fun c => c.fd ∉ fds, stale := stale } := by
  induction fds generalizing s with
  | nil => exact ⟨s.stale, by simp⟩
  | cons fd fds ih =>
    obtain ⟨stale, heq⟩ := ih (s.removeClient fd)
    refine ⟨stale, ?_⟩
    rw [List.foldl_cons, heq, removeClient, List.filter_filter]
    congr 1
    refine List.filter_congr fun c _ => ?_
    rw [← Bool.decide_and, decide_eq_decide, List.mem_cons, not_or, and_comm]

/-- Those who are lost, and everybody else is written to. -/
theorem broadcast_eq (s : Daemon) (noise : Noise) (lost : List Nat) :
    ∃ stale, s.broadcast noise lost =
      { s with
        clients := (s.clients.filter fun c => c.fd ∉ lost).map (Client.write · (.noise noise))
        stale := stale } := by
  obtain ⟨stale, heq⟩ := foldl_removeClient s (s.clis.filter fun fd => fd ∈ lost)
  refine ⟨stale, ?_⟩
  rw [broadcast, heq]
  have hlost : s.clients.filter (fun c => c.fd ∉ s.clis.filter fun fd => fd ∈ lost) =
      s.clients.filter fun c => c.fd ∉ lost := by
    refine List.filter_congr fun c hc => ?_
    have hmem : c.fd ∈ s.clis := List.mem_map_of_mem hc
    rw [decide_eq_decide, List.mem_filter, decide_eq_true_iff, and_iff_right hmem]
  rw [hlost]

/-! ### Who is looked at -/

/-- `get_command` reads from one client, or is over. -/
theorem readOn_eq (s : Daemon) (fd : Nat) (b : Str) : ∃ clients stale reading,
    s.readOn fd b = { s with clients := clients, stale := stale, reading := reading } ∧
      ∀ x ∈ reading, x.1 = fd := by
  rw [readOn]
  split_ifs
  · refine ⟨s.clients, s.stale, some (fd, b), rfl, ?_⟩
    intro x hx
    rw [← Option.some.inj hx]
  · obtain ⟨stale, heq⟩ := dismiss_eq s
    exact ⟨s.dismiss.clients, stale, none, by rw [heq], by simp⟩

/-- The loop is over, or a `get_command` begins for the client that is in the place. -/
inductive Scanned (s : Daemon) (bytes : ReadResult) : Daemon → Prop
  | same : Scanned s bytes s
  | ended : Scanned s bytes { s with pollFds := [] }
  | reads (fd i : Nat) (pollFds : List (Nat × Nat)) (c : Client) (hreading : s.reading = none)
      (hpoll : s.pollFds = (fd, i) :: pollFds) (hc : s.clients[i]? = some c) :
      Scanned s bytes ({ s with pollFds := pollFds, place := i }.getCommand c.fd bytes)

/-- **Who is looked at.** -/
theorem scanned (s : Daemon) (bytes : ReadResult) : Scanned s bytes (s.scan bytes) := by
  unfold scan
  split
  · rename_i fd i pollFds hreading hpoll
    cases hc : s.clients[i]? with
    | none => exact .ended
    | some c => exact .reads fd i pollFds c hreading hpoll hc
  · exact .same

/-! ### What a command may do -/

/-- The line is a `SEND_STOP` that ends the repetition. -/
def stops (cfg : Config) (s : Daemon) (line : Str) : Bool :=
  match directive cfg line, s.repeating with
  | .sendStop remote code, some (repeatRemote, repeatCode) =>
    !(remote.any fun remote => !strcasecmp remote.name repeatRemote.name) &&
      !(code.any fun code => !strcasecmp code.name repeatCode.name) &&
      decide (repeatRemote.minRepeat ≤ s.done cfg)
  | _, _ => false

def IsStop (cfg : Config) (line : Str) : Prop :=
  ∃ remote code, directive cfg line = .sendStop remote code

def asks (s : Daemon) (fd : Nat) (line : Str) : Daemon :=
  { s.onClient fd (Client.ask · ⟨s.requests, line⟩) with requests := s.requests + 1 }

theorem inPlace_asks (s : Daemon) (fd : Nat) (line : Str) :
    (s.asks fd line).inPlace = s.inPlace := by
  have hclis : (s.asks fd line).clis = s.clis := clis_onClient s fd fun _ => rfl
  rw [inPlace, hclis]
  rfl

/-- A command is answered at once, or it waits for the repeats that it starts. -/
inductive Obeyed (cfg : Config) (s : Daemon) (fd : Nat) (line : Str) (written : Bool) :
    Bool × Daemon → Prop
  | answered (reply : Reply) (repeating : Option (Remote × Code)) (countdown : Int)
      (hnone : repeating = none → s.repeating = none ∨ s.stops cfg line = true)
      (hstops : s.stops cfg line = true → repeating = none)
      (hcountdown : countdown = s.countdown ∨ s.repeating = none ∨ IsStop cfg line) :
      Obeyed cfg s fd line written
        ({ s.asks fd line with repeating := repeating, countdown := countdown }.answer fd
          ⟨s.requests, line⟩ reply written)
  | waits (repeating : Remote × Code) (countdown : Int) (hnone : s.repeating = none) :
      Obeyed cfg s fd line written
        (true,
          { s.asks fd line with
            repeating := some repeating
            countdown := countdown
            repeatMessage := some ⟨s.requests, line⟩
            repeatFd := some fd })

variable {fd : Nat} {line : Str} {hw : Hardware}

theorem obeyed_of_answer (hstops : s.stops cfg line = false) {countdown : Int}
    (hcountdown : countdown = s.countdown ∨ s.repeating = none ∨ IsStop cfg line) (reply : Reply) :
    Obeyed cfg s fd line hw.written
      ({ s.asks fd line with countdown := countdown }.answer fd ⟨s.requests, line⟩ reply
        hw.written) := by
  refine .answered reply s.repeating countdown Or.inl (fun h => ?_) hcountdown
  rw [hstops] at h
  exact absurd h Bool.false_ne_true

theorem obeyed_sendCore (hstops : s.stops cfg line = false) (remote : Remote) (code : Code)
    (reps : Option Nat) :
    Obeyed cfg s fd line hw.written
      ((s.asks fd line).sendCore cfg fd ⟨s.requests, line⟩ hw remote code reps) := by
  unfold sendCore
  by_cases hbusy : (s.asks fd line).repeating ≠ none
  · rw [if_pos hbusy]
    exact obeyed_of_answer hstops (Or.inl rfl) _
  · rw [if_neg hbusy]
    have hnone : s.repeating = none := not_not.mp hbusy
    by_cases hsent : hw.sent = false
    · rw [if_pos hsent]
      exact obeyed_of_answer hstops (Or.inl rfl) _
    · rw [if_neg hsent]
      cases reps with
      | some reps =>
        by_cases hrepeats : 0 < max hw.countdown (toInt reps) ∨ code.hasNext = true
        · dsimp only
          rw [if_pos hrepeats]
          exact .waits _ _ hnone
        · dsimp only
          rw [if_neg hrepeats]
          exact obeyed_of_answer hstops (Or.inr (Or.inl hnone)) _
      | none =>
        by_cases hrepeats : 0 < toInt cfg.repeatMax ∨ code.hasNext = true
        · dsimp only
          rw [if_pos hrepeats]
          cases hwritten : hw.written with
          | true =>
            refine .answered _ (some (remote, code)) _ (by simp) (fun h => ?_)
              (Or.inr (Or.inl hnone))
            rw [hstops] at h
            exact absurd h Bool.false_ne_true
          | false =>
            have hkeep : Obeyed cfg s fd line hw.written
                ({ s.asks fd line with countdown := toInt cfg.repeatMax }.answer fd
                  ⟨s.requests, line⟩ (.success []) hw.written) :=
              obeyed_of_answer hstops (Or.inr (Or.inl hnone)) _
            rw [hwritten] at hkeep
            exact hkeep
        · dsimp only
          rw [if_neg hrepeats]
          exact obeyed_of_answer hstops (Or.inr (Or.inl hnone)) _

theorem obeyed_sendStop {remote : Option Remote} {code : Option Code}
    (hline : directive cfg line = .sendStop remote code) :
    Obeyed cfg s fd line hw.written
      ((s.asks fd line).sendStop cfg fd ⟨s.requests, line⟩ hw remote code) := by
  have hasks : (s.asks fd line).repeating = s.repeating := rfl
  have hdone : (s.asks fd line).done cfg = s.done cfg := rfl
  have hstop : IsStop cfg line := ⟨remote, code, hline⟩
  unfold sendStop
  cases hrepeating : s.repeating with
  | none =>
    have hstops : s.stops cfg line = false := by rw [stops, hline, hrepeating]
    rw [hasks, hrepeating]
    exact obeyed_of_answer hstops (Or.inl rfl) _
  | some x =>
    obtain ⟨repeatRemote, repeatCode⟩ := x
    have hstops : s.stops cfg line =
        (!(remote.any fun remote => !strcasecmp remote.name repeatRemote.name) &&
          !(code.any fun code => !strcasecmp code.name repeatCode.name) &&
          decide (repeatRemote.minRepeat ≤ s.done cfg)) := by
      rw [stops, hline, hrepeating]
    rw [hasks, hrepeating]
    dsimp only
    rw [hdone]
    by_cases hremote : (remote.any fun remote => !strcasecmp remote.name repeatRemote.name) = true
    · rw [if_pos hremote]
      refine obeyed_of_answer ?_ (Or.inl rfl) _
      rw [hstops, hremote]
      rfl
    · rw [if_neg hremote]
      by_cases hcode : (code.any fun code => !strcasecmp code.name repeatCode.name) = true
      · rw [if_pos hcode]
        refine obeyed_of_answer ?_ (Or.inl rfl) _
        rw [hstops, hcode, Bool.not_true, Bool.and_false, Bool.false_and]
      · rw [if_neg hcode]
        by_cases hfew : s.done cfg < repeatRemote.minRepeat
        · rw [if_pos hfew, ← hrepeating, ← hasks]
          refine obeyed_of_answer ?_ (Or.inr (Or.inr hstop)) _
          rw [hstops, decide_eq_false (by omega), Bool.and_false]
        · rw [if_neg hfew]
          refine .answered _ none _ (fun _ => Or.inr ?_) (fun _ => rfl) (Or.inl rfl)
          rw [hstops, Bool.eq_false_of_not_eq_true hremote, Bool.eq_false_of_not_eq_true hcode,
            decide_eq_true (not_lt.mp hfew)]
          rfl

/-- What a command may do. -/
theorem obeyed (cfg : Config) (s : Daemon) (fd : Nat) (line : Str) (hw : Hardware) :
    Obeyed cfg s fd line hw.written (s.obey cfg fd line hw) := by
  have hother : (∀ remote code, directive cfg line ≠ .sendStop remote code) →
      s.stops cfg line = false := by
    intro h
    rw [stops]
    split
    · exact absurd ‹_› (h _ _)
    · rfl
  rw [obey]
  cases hline : directive cfg line with
  | refuse text => exact obeyed_of_answer (hother (by simp [hline])) (Or.inl rfl) _
  | sendOnce remote code reps => exact obeyed_sendCore (hother (by simp [hline])) _ _ _
  | sendStart remote code => exact obeyed_sendCore (hother (by simp [hline])) _ _ _
  | sendStop remote code => exact obeyed_sendStop hline
  | other => exact obeyed_of_answer (hother (by simp [hline])) (Or.inl rfl) _

/-- `get_command` has no line, or it answers the command in it, fails to, or lets it wait. -/
inductive Takes (cfg : Config) (s : Daemon) (hw : Hardware) : Daemon → Prop
  | same (hline : ∀ x ∈ s.reading, firstLine x.2 = none) : Takes cfg s hw s
  | answers (fd : Nat) (b line rest : Str) (reply : Reply) (repeating : Option (Remote × Code))
      (countdown : Int) (hreading : s.reading = some (fd, b))
      (hline : firstLine b = some (line, rest)) (hobeyed : (s.obey cfg fd line hw).1 = true)
      (hwritten : hw.written = true)
      (hnone : repeating = none → s.repeating = none ∨ s.stops cfg line = true)
      (hstops : s.stops cfg line = true → repeating = none)
      (hcountdown : countdown = s.countdown ∨ s.repeating = none ∨ IsStop cfg line) :
      Takes cfg s hw
        { { s.asks fd line with repeating := repeating, countdown := countdown }.onClient fd
            (Client.write · (.answer ⟨s.requests, line⟩ reply)) with
          reading := if rest = [] then none else some (fd, rest) }
  | fails (fd : Nat) (b line rest : Str) (repeating : Option (Remote × Code)) (countdown : Int)
      (hreading : s.reading = some (fd, b)) (hline : firstLine b = some (line, rest))
      (hobeyed : (s.obey cfg fd line hw).1 = false) (hwritten : hw.written = false)
      (hnone : repeating = none → s.repeating = none ∨ s.stops cfg line = true)
      (hstops : s.stops cfg line = true → repeating = none)
      (hcountdown : countdown = s.countdown ∨ s.repeating = none ∨ IsStop cfg line) :
      Takes cfg s hw
        { dismiss { s.asks fd line with repeating := repeating, countdown := countdown } with
          reading := none }
  | waits (fd : Nat) (b line rest : Str) (repeating : Remote × Code) (countdown : Int)
      (hreading : s.reading = some (fd, b)) (hline : firstLine b = some (line, rest))
      (hobeyed : (s.obey cfg fd line hw).1 = true) (hnone : s.repeating = none) :
      Takes cfg s hw
        { s.asks fd line with
          repeating := some repeating
          countdown := countdown
          repeatMessage := some ⟨s.requests, line⟩
          repeatFd := some fd
          reading := if rest = [] then none else some (fd, rest) }

/-- **What becomes of a command.** -/
theorem takes (cfg : Config) (s : Daemon) (hw : Hardware) : Takes cfg s hw (s.next cfg hw) := by
  rw [next]
  cases hreading : s.reading with
  | none => exact .same (by simp [hreading])
  | some x =>
    obtain ⟨fd, b⟩ := x
    dsimp only
    cases hline : firstLine b with
    | none => exact .same (by simp [hreading, hline])
    | some x =>
      obtain ⟨line, rest⟩ := x
      dsimp only
      have hobey := obeyed cfg s fd line hw
      generalize hx : s.obey cfg fd line hw = x at hobey
      have hfst : (s.obey cfg fd line hw).1 = x.1 := congrArg Prod.fst hx
      cases hobey with
      | answered reply repeating countdown hnone hstops hcountdown =>
        cases hwritten : hw.written with
        | true =>
          rw [hwritten] at hfst
          exact .answers fd b line rest reply repeating countdown hreading hline hfst hwritten
            hnone hstops hcountdown
        | false =>
          rw [hwritten] at hfst
          exact .fails fd b line rest repeating countdown hreading hline hfst hwritten hnone hstops
            hcountdown
      | waits repeating countdown hnone =>
        exact .waits fd b line rest repeating countdown hreading hline hfst hnone

/-! ### What the timer may do -/

def ends (s : Daemon) (alarm : Alarm) : Bool :=
  match s.repeating with
  | none => false
  | some (_, code) => alarm.changed || !(alarm.sent && decide (0 < s.lowered code alarm))

theorem dosigalrm_of_not_ends {alarm : Alarm} (h : s.ends alarm = false) :
    ∃ countdown, s.dosigalrm alarm = { s with countdown := countdown } ∧
      ∀ remote code, s.repeating = some (remote, code) →
        countdown = s.lowered code alarm ∧ 0 < countdown := by
  rw [ends] at h
  rw [dosigalrm]
  cases hrepeating : s.repeating with
  | none =>
    refine ⟨s.countdown, ?_, by simp⟩
    dsimp only
    rw [← hrepeating]
  | some x =>
    obtain ⟨remote, code⟩ := x
    rw [hrepeating] at h
    simp only [Bool.or_eq_false_iff, Bool.not_eq_false', Bool.and_eq_true, decide_eq_true_iff] at h
    dsimp only
    rw [if_neg (by rw [h.1]; exact Bool.false_ne_true), if_pos h.2, ← hrepeating]
    refine ⟨_, rfl, ?_⟩
    intro remote' code' hx
    rw [hrepeating, Option.some.injEq, Prod.mk.injEq] at hx
    obtain ⟨-, rfl⟩ := hx
    exact ⟨rfl, h.2.2⟩

/-- Behind the repetition nobody waits. -/
structure Ended (s t : Daemon) (written : Bool) : Prop where
  clients : ∃ reply, t.clients = (s.answerRepeat reply written).clients
  repeatFd : t.repeatFd = none
  repeating : t.repeating = none
  requests : t.requests = s.requests
  pollFds : t.pollFds = s.pollFds
  reading : t.reading = s.reading

theorem answerRepeat_eq (s : Daemon) (reply : Reply) (written : Bool) :
    ∃ clients, s.answerRepeat reply written = { s with clients := clients } := by
  rw [answerRepeat]
  split
  · rw [answer]
    split_ifs
    · exact ⟨_, rfl⟩
    · exact ⟨s.clients, rfl⟩
  · exact ⟨s.clients, rfl⟩

theorem ended_answerRepeat (s : Daemon) (reply : Reply) (written : Bool) :
    Ended s
      { s.answerRepeat reply written with
        repeating := none, repeatFd := none, repeatMessage := none } written := by
  obtain ⟨clients, heq⟩ := answerRepeat_eq s reply written
  exact ⟨⟨reply, rfl⟩, rfl, rfl, by rw [heq], by rw [heq], by rw [heq]⟩

theorem dosigalrm_of_ends {alarm : Alarm} (h : s.ends alarm = true) :
    Ended s (s.dosigalrm alarm) alarm.written := by
  rw [ends] at h
  rw [dosigalrm]
  cases hrepeating : s.repeating with
  | none =>
    rw [hrepeating] at h
    exact absurd h Bool.false_ne_true
  | some x =>
    obtain ⟨remote, code⟩ := x
    rw [hrepeating] at h
    dsimp only at h ⊢
    by_cases hchanged : alarm.changed = true
    · rw [if_pos hchanged]
      exact ended_answerRepeat s _ _
    · have hgo : ¬ (alarm.sent = true ∧ 0 < s.lowered code alarm) := by
        rintro ⟨hsent, hpos⟩
        rw [Bool.eq_false_of_not_eq_true hchanged, hsent, decide_eq_true hpos] at h
        exact absurd h Bool.false_ne_true
      rw [if_neg hchanged, if_neg hgo]
      by_cases hfd : s.repeatFd = none
      · rw [if_pos hfd]
        refine ⟨⟨.success [], ?_⟩, hfd, rfl, rfl, rfl, rfl⟩
        rw [answerRepeat, hfd]
      · rw [if_neg hfd]
        exact ended_answerRepeat s _ _

end Daemon

end Orbiter.Lirc
