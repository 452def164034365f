import Orbiter.Lirc.Command
import Orbiter.Lirc.Session

/-!
# A command and its response

`lirc_command_run` behind its `write`, on a connection: the daemon writes key lines, SIGHUP
packets and the response, the client iterates its loop, and the kernel gives it as much as
it likes.

* `Reading`: the response so far is that to the lines so far.
* `exchange_understood`: **as long as every read completes a line, the client returns
  nothing but what the daemon said.**
* `whole_exchange`: **with whole lines and full reads it does return.**
-/

namespace Orbiter.Lirc

open Cxx Frames

def onWire (ls : List Str) : Str := (ls.map fun l => l ++ ['\n']).flatten

/-- What a read with a timeout is given: up to `len + 1` bytes, EAGAIN or EINTR, or another
error. -/
inductive Poll
  | data (len : Nat)
  | timeout
  | error
  deriving DecidableEq

def Socket.poll (poll : Poll) (room : Nat) (fd : Socket) : ReadResult × Socket :=
  match poll with
  | .data len => fd.read (some len) room
  | .timeout => (.again, fd)
  | .error => (.failed, fd)

/-- The read is given all there is room for, or nothing in time. -/
def Poll.IsFull : Poll → Prop
  | .data len => 255 ≤ len
  | .timeout => True
  | .error => False

/-- The loop of `lirc_command_run`, its socket, what was sent, and the strings it looked
at. -/
structure Exchange where
  ctx : CmdCtx
  hasString : Bool
  response : Response
  socket : Socket
  sent : Str
  strings : List Str
  deriving DecidableEq

namespace Exchange

inductive Act
  | write (bytes : Str)
  | close
  | iterate (poll : Poll)
  deriving DecidableEq

variable (packet : Str) (toStdout : Bool) (e : Exchange)

/-- The loop goes on with a string; behind an error that is the one before, or null. -/
def look (string : Str) : Exchange :=
  { e with
    response := e.response.accept packet toStdout string
    strings := e.strings ++ [string] }

/-- One iteration; EAGAIN is tried again. -/
def iterate (poll : Poll) : Exchange :=
  if e.response.result ≠ none then e
  else
    match e.ctx.readString (Socket.poll poll) e.socket with
    | (.again, ctx, socket) => { e with ctx := ctx, socket := socket }
    | (.failed, ctx, socket) =>
      { e with ctx := ctx, socket := socket }.look packet toStdout
        (if e.hasString then cString ctx.buffer else [])
    | (.ok, ctx, socket) =>
      { e with ctx := ctx, socket := socket, hasString := true }.look packet toStdout
        (cString ctx.buffer)

def step : Act → Exchange
  | .write bytes =>
    if e.socket.closed then e
    else
      { e with
        socket := { e.socket with unread := e.socket.unread ++ bytes }
        sent := e.sent ++ bytes }
  | .close => { e with socket := { e.socket with closed := true } }
  | .iterate poll => e.iterate packet toStdout poll

def machine : Machine Exchange Act where
  init := ⟨.init, false, .init, ⟨[], false⟩, [], []⟩
  step := step packet toStdout

/-- The iteration gets a whole line, or nothing at all. -/
def Completes : Act → Prop
  | .write _ => True
  | .close => True
  | .iterate poll => e.response.result = none → '\n' ∉ e.ctx.pending →
      (Socket.poll poll (256 - e.ctx.pending.length) e.socket).1 = .again ∨
        '\n' ∈ e.ctx.pending ++ (Socket.poll poll (256 - e.ctx.pending.length) e.socket).1.given

variable {packet toStdout e}

/-! ### What was read -/

/-- The response so far is that to the lines so far, and the other bytes are pending or
unread. -/
structure Reading (packet : Str) (toStdout : Bool) (e : Exchange) : Prop where
  ready : Ready e.ctx e.ctx.pending
  conserved : e.sent = onWire e.strings ++ (e.ctx.pending ++ e.socket.unread)
  line : ∀ string ∈ e.strings, '\n' ∉ string
  response : e.response = e.strings.foldl (Response.accept packet toStdout) .init

theorem onWire_append (ls ls' : List Str) : onWire (ls ++ ls') = onWire ls ++ onWire ls' := by
  rw [onWire, List.map_append, List.flatten_append]
  rfl

theorem onWire_concat (ls : List Str) (l : Str) :
    onWire (ls ++ [l]) = onWire ls ++ (l ++ ['\n']) := by
  rw [onWire_append]
  simp [onWire]

theorem isFrame_line {ls : List Str} (h : ∀ l ∈ ls, '\n' ∉ l) :
    ∀ f ∈ ls.map (fun l => l ++ ['\n']), IsFrame '\n' f := by
  intro f hf
  obtain ⟨l, hl, rfl⟩ := List.mem_map.mp hf
  exact ⟨l, h l hl, rfl⟩

theorem prefix_of_onWire {ls ls' : List Str} (h : ∀ l ∈ ls, '\n' ∉ l) (h' : ∀ l ∈ ls', '\n' ∉ l)
    (hp : onWire ls <+: onWire ls') : ls <+: ls' := by
  have hmap := prefix_of_flatten (isFrame_line h) (isFrame_line h') hp
  exact (List.prefix_map_iff_of_injective (List.append_left_injective ['\n'])).mp hmap

theorem Reading.line_step (h : Reading packet toStdout e) {bytes : Str} {poll : Poll}
    {socket : Socket} (hnone : e.response.result = none)
    (hbytes : e.ctx.pending ++ e.socket.unread = bytes ++ socket.unread)
    (hgives : GivesLine (e.ctx.readString (Socket.poll poll) e.socket) bytes socket) :
    Reading packet toStdout (e.iterate packet toStdout poll) ∧
      (e.iterate packet toStdout poll).strings.length = e.strings.length + 1 := by
  obtain ⟨l, rest, hl, hline, hok, hstring, hready, hsocket⟩ := hgives
  rw [iterate, if_neg (not_not.mpr hnone)]
  cases hx : e.ctx.readString (Socket.poll poll) e.socket with
  | mk r x =>
    obtain ⟨ctx, socket'⟩ := x
    rw [hx] at hok hstring hready hsocket
    simp only at hok hstring hready hsocket
    subst hok hsocket
    have hpending := hready.pending
    refine ⟨⟨?_, ?_, ?_, ?_⟩, ?_⟩
    · show Ready ctx ctx.pending
      rw [hpending]
      exact hready
    · show e.sent = onWire (e.strings ++ [cString ctx.buffer]) ++ (ctx.pending ++ socket'.unread)
      rw [hpending, hstring, onWire_concat, h.conserved, hbytes, hl]
      simp only [List.append_assoc, List.cons_append, List.nil_append]
    · intro string hs
      change string ∈ e.strings ++ [cString ctx.buffer] at hs
      rcases List.mem_append.mp hs with hs | hs
      · exact h.line string hs
      · rw [List.mem_singleton.mp hs, hstring]
        exact hline
    · show e.response.accept packet toStdout (cString ctx.buffer) =
        (e.strings ++ [cString ctx.buffer]).foldl _ _
      rw [h.response, List.foldl_append]
      rfl
    · show (e.strings ++ [_]).length = _
      rw [List.length_append, List.length_singleton]

theorem reads_poll (poll : Poll) : Reads Socket.unread (Socket.poll poll) := by
  intro room fd
  cases poll with
  | data len => exact reads_read (some len) room fd
  | timeout => rfl
  | error => rfl

theorem Reading.again_step (h : Reading packet toStdout e) {poll : Poll} {socket : Socket}
    (hnone : e.response.result = none) (hnul : nul ∉ e.ctx.pending) (hno : '\n' ∉ e.ctx.pending)
    (hread : Socket.poll poll (256 - e.ctx.pending.length) e.socket = (.again, socket))
    (hunread : socket.unread = e.socket.unread) :
    Reading packet toStdout (e.iterate packet toStdout poll) ∧
      (e.iterate packet toStdout poll).strings = e.strings := by
  obtain ⟨hagain, hready, hsocket⟩ := readString_of_again h.ready hnul hno hread
  rw [Exchange.iterate, if_neg (not_not.mpr hnone)]
  cases hx : e.ctx.readString (Socket.poll poll) e.socket with
  | mk r x =>
    obtain ⟨ctx, socket'⟩ := x
    rw [hx] at hagain hready hsocket
    simp only at hagain hready hsocket
    subst hagain hsocket
    have hpending := hready.pending
    refine ⟨⟨?_, ?_, h.line, h.response⟩, rfl⟩
    · show Ready ctx ctx.pending
      rw [hpending]
      exact hready
    · show e.sent = onWire e.strings ++ (ctx.pending ++ socket'.unread)
      rw [hpending, hunread]
      exact h.conserved

theorem Reading.iterate (h : Reading packet toStdout e) (hnul : nul ∉ e.sent) {poll : Poll}
    (hc : e.Completes (.iterate poll)) :
    Reading packet toStdout (e.iterate packet toStdout poll) ∧
      ((e.iterate packet toStdout poll).strings.length = e.strings.length + 1 ∨
        (e.iterate packet toStdout poll).strings = e.strings ∧
          (e.response.result = none → '\n' ∉ e.ctx.pending ∧
            (Socket.poll poll (256 - e.ctx.pending.length) e.socket).1 = .again)) := by
  rw [h.conserved, List.mem_append, not_or, List.mem_append, not_or] at hnul
  obtain ⟨-, hpending, hunread⟩ := hnul
  by_cases hnone : e.response.result = none
  · by_cases hline : '\n' ∈ e.ctx.pending
    · obtain ⟨hkeep, hmore⟩ :=
        h.line_step hnone rfl (readString_of_line h.ready hpending hline)
      exact ⟨hkeep, Or.inl hmore⟩
    · have hreads := reads_poll poll (256 - e.ctx.pending.length) e.socket
      have hcomplete := hc hnone hline
      cases hread : Socket.poll poll (256 - e.ctx.pending.length) e.socket with
      | mk r socket =>
        rw [hread] at hreads hcomplete
        cases r with
        | again =>
          obtain ⟨hkeep, hsame⟩ := h.again_step hnone hpending hline hread hreads.symm
          exact ⟨hkeep, Or.inr ⟨hsame, fun _ => ⟨hline, rfl⟩⟩⟩
        | failed => exact absurd hcomplete (by simp [ReadResult.given, hline])
        | bytes s =>
          obtain ⟨hlen, hstream⟩ := hreads
          have hmem : '\n' ∈ e.ctx.pending ++ s := hcomplete.resolve_left (by simp)
          have hnul' : nul ∉ e.ctx.pending ++ s := by
            rw [List.mem_append, not_or]
            exact ⟨hpending, fun hs => hunread (by rw [hstream]; exact List.mem_append_left _ hs)⟩
          have hgives := readString_of_complete h.ready hline hread hlen hnul' hmem
          obtain ⟨hkeep, hmore⟩ := h.line_step hnone (by rw [hstream, List.append_assoc]) hgives
          exact ⟨hkeep, Or.inl hmore⟩
  · rw [Exchange.iterate, if_pos hnone]
    exact ⟨h, Or.inr ⟨rfl, fun hn => absurd hn hnone⟩⟩

theorem Reading.step (h : Reading packet toStdout e) (hnul : nul ∉ e.sent) {a : Act}
    (hc : e.Completes a) : Reading packet toStdout (e.step packet toStdout a) := by
  cases a with
  | write bytes =>
    rw [Exchange.step]
    split_ifs with hclosed
    · exact h
    · refine ⟨h.ready, ?_, h.line, h.response⟩
      show e.sent ++ bytes = _ ++ (_ ++ (e.socket.unread ++ bytes))
      rw [h.conserved]
      simp only [List.append_assoc]
  | close => exact ⟨h.ready, h.conserved, h.line, h.response⟩
  | iterate poll => exact (h.iterate hnul hc).1

theorem reading_init : Reading packet toStdout (machine packet toStdout).init :=
  ⟨.fresh _ List.length_replicate, rfl, by simp [machine], rfl⟩

theorem iterate_sent (e : Exchange) (poll : Poll) :
    (e.iterate packet toStdout poll).sent = e.sent := by
  rw [iterate]
  by_cases hnone : e.response.result ≠ none
  · rw [if_pos hnone]
  · rw [if_neg hnone]
    cases e.ctx.readString (Socket.poll poll) e.socket with
    | mk r x => cases r <;> rfl

theorem step_sent_mono (e : Exchange) (a : Act) : e.sent <+: (e.step packet toStdout a).sent := by
  cases a with
  | write bytes =>
    rw [step]
    split_ifs
    · exact List.prefix_rfl
    · exact List.prefix_append _ _
  | close => exact List.prefix_rfl
  | iterate poll =>
    show e.sent <+: (e.iterate packet toStdout poll).sent
    rw [iterate_sent]

theorem reading_run {acts : List Act} (hnul : nul ∉ ((machine packet toStdout).run acts).sent)
    (hc : ∀ x ∈ (machine packet toStdout).steps acts, x.1.Completes x.2) :
    Reading packet toStdout ((machine packet toStdout).run acts) := by
  induction acts using List.reverseRecOn with
  | nil => exact reading_init
  | append_singleton acts a ih =>
    rw [Machine.run_concat] at hnul ⊢
    rw [Machine.steps_concat] at hc
    have hnul' : nul ∉ ((machine packet toStdout).run acts).sent := fun hmem =>
      hnul ((step_sent_mono _ a).subset hmem)
    have h := ih hnul' fun x hx => hc x (List.mem_append_left _ hx)
    exact h.step hnul' (hc _ (List.mem_append_right _ (List.mem_singleton_self _)))

/-! ### What the client returns -/

variable {message : Str} {noises : List Noise} {reply : Reply} {more : List Str}

def Line (l : Str) : Prop := '\n' ∉ l ∧ nul ∉ l

instance (l : Str) : Decidable (Line l) := inferInstanceAs (Decidable ('\n' ∉ l ∧ nul ∉ l))

theorem nul_notMem_onWire {ls : List Str} (h : ∀ l ∈ ls, Line l) : nul ∉ onWire ls := by
  intro hmem
  obtain ⟨f, hf, hc⟩ := List.mem_flatten.mp hmem
  obtain ⟨l, hl, rfl⟩ := List.mem_map.mp hf
  rcases List.mem_append.mp hc with hc | hc
  · exact (h l hl).2 hc
  · exact absurd hc (by decide)

theorem Reading.strings_prefix (h : Reading packet toStdout e) {ls : List Str}
    (hls : ∀ l ∈ ls, Line l) (hp : e.sent <+: onWire ls) : e.strings <+: ls := by
  refine prefix_of_onWire h.line (fun l hl => (hls l hl).1) (List.IsPrefix.trans ?_ hp)
  rw [h.conserved]
  exact List.prefix_append _ _

/-- **The client returns nothing but what the daemon said**: as long as every read
completes a line, it returns nothing before the END of its response, and behind that the
status and the data of it. -/
theorem exchange_understood (toStdout : Bool) (message : Str) (noises : List Noise) (reply : Reply)
    (more : List Str) (acts : List Act) (hsound : Response.Sound message noises reply)
    (hls : ∀ l ∈ Response.heard message noises reply ++ more, Line l)
    (hsent : ((machine (message ++ ['\n']) toStdout).run acts).sent <+:
      onWire (Response.heard message noises reply ++ more))
    (hc : ∀ x ∈ (machine (message ++ ['\n']) toStdout).steps acts, x.1.Completes x.2) :
    (((machine (message ++ ['\n']) toStdout).run acts).strings.length <
          (Response.heard message noises reply).length ∧
        ((machine (message ++ ['\n']) toStdout).run acts).response.result = none) ∨
      ((Response.heard message noises reply).length ≤
          ((machine (message ++ ['\n']) toStdout).run acts).strings.length ∧
        Response.Understood reply toStdout
          ((machine (message ++ ['\n']) toStdout).run acts).response) := by
  have hnul : nul ∉ ((machine (message ++ ['\n']) toStdout).run acts).sent := fun hmem =>
    nul_notMem_onWire hls (hsent.subset hmem)
  have h := reading_run hnul hc
  rw [h.response]
  exact Response.understood_of_prefix hsound toStdout (h.strings_prefix hls hsent)

instance (a : Act) : Decidable (e.Completes a) :=
  match a with
  | .write _ => .isTrue trivial
  | .close => .isTrue trivial
  | .iterate poll =>
    inferInstanceAs (Decidable (e.response.result = none → '\n' ∉ e.ctx.pending →
      (Socket.poll poll (256 - e.ctx.pending.length) e.socket).1 = .again ∨
        '\n' ∈ e.ctx.pending ++
          (Socket.poll poll (256 - e.ctx.pending.length) e.socket).1.given))

def noisy : List Noise := [.broadcast "0001 00 KEY_OK tv".toList, .sighup]

theorem sound_noisy : Response.Sound "LIST".toList noisy (.success ["tv".toList]) where
  ne_nil := by decide
  line := by decide
  foreign := by
    intro noise hn
    rcases List.mem_pair.mp hn with rfl | rfl
    · exact ⟨by decide, by decide⟩
    · show strcasecmp _ _ = false
      decide
  data := by decide
  length := by decide

/-- The response comes in two pieces, of which the first ends inside a line. -/
def twoPieces : List Act :=
  [.iterate .timeout, .write "0001 00 KEY_OK tv\nBEGIN\nSIGHUP\nEND\nBEG".toList,
    .iterate (.data 99), .iterate .error, .iterate .error, .iterate .error,
    .write "IN\nLIST\nSUCCESS\nDATA\n1\ntv\nEND\n".toList, .iterate (.data 2),
    .iterate (.data 99), .iterate .error, .iterate .error, .iterate .error, .iterate .error,
    .iterate .error, .close]

theorem exchange_understood_twoPieces :
    (((machine ("LIST".toList ++ ['\n']) false).run twoPieces).strings.length <
          (Response.heard "LIST".toList noisy (.success ["tv".toList])).length ∧
        ((machine ("LIST".toList ++ ['\n']) false).run twoPieces).response.result = none) ∨
      ((Response.heard "LIST".toList noisy (.success ["tv".toList])).length ≤
          ((machine ("LIST".toList ++ ['\n']) false).run twoPieces).strings.length ∧
        Response.Understood (.success ["tv".toList]) false
          ((machine ("LIST".toList ++ ['\n']) false).run twoPieces).response) :=
  exchange_understood false _ _ _ [] twoPieces sound_noisy (by decide) (by decide) (by decide)

/-! ### Whole lines and full reads -/

/-- A line that fits into the buffer with its end. -/
def Short (l : Str) : Prop := Line l ∧ l.length ≤ 255

instance (l : Str) : Decidable (Short l) := inferInstanceAs (Decidable (Line l ∧ l.length ≤ 255))

namespace Act

/-- The daemon writes whole lines, and the kernel keeps nothing of them back. -/
def IsWhole : Act → Prop
  | .write bytes => ∃ ls, bytes = onWire ls ∧ ∀ l ∈ ls, Short l
  | .close => False
  | .iterate poll => poll.IsFull

/-- Only the client acts. -/
def IsQuiet : Act → Prop
  | .write _ => False
  | .close => False
  | .iterate poll => poll.IsFull

/-- An iteration that is not told to try again as long as there is something to read. -/
def isData : Act → Bool
  | .iterate (.data _) => true
  | _ => false

end Act

/-- The connection is open, and what was sent are these lines. -/
def Whole (ls : List Str) (e : Exchange) : Prop :=
  e.socket.closed = false ∧ e.sent = onWire ls

/-- What is not looked at yet are whole lines. -/
theorem Reading.behind (h : Reading packet toStdout e) {ls : List Str} (hls : ∀ l ∈ ls, Short l)
    (hsent : e.sent = onWire ls) :
    ∃ rest, ls = e.strings ++ rest ∧ e.ctx.pending ++ e.socket.unread = onWire rest := by
  obtain ⟨rest, rfl⟩ := h.strings_prefix (fun l hl => (hls l hl).1) (by rw [hsent])
  refine ⟨rest, rfl, ?_⟩
  rw [h.conserved, onWire_append, List.append_cancel_left_eq] at hsent
  exact hsent

/-- A full read gives the rest of a line, if there is one. -/
theorem Reading.full_read (h : Reading packet toStdout e) {ls : List Str} (hls : ∀ l ∈ ls, Short l)
    (hw : e.Whole ls) (hno : '\n' ∉ e.ctx.pending) {len : Nat} (hlen : 255 ≤ len) :
    (e.strings = ls ∧
        (Socket.poll (.data len) (256 - e.ctx.pending.length) e.socket).1 = .again) ∨
      (Socket.poll (.data len) (256 - e.ctx.pending.length) e.socket).1 ≠ .again ∧
        '\n' ∈ e.ctx.pending ++
          (Socket.poll (.data len) (256 - e.ctx.pending.length) e.socket).1.given := by
  obtain ⟨rest, hrest, hwire⟩ := h.behind hls hw.2
  have hp := h.ready.length_le
  cases rest with
  | nil =>
    obtain ⟨-, hunread⟩ := List.append_eq_nil_iff.mp (hwire.trans rfl)
    refine Or.inl ⟨by rw [hrest, List.append_nil], ?_⟩
    rw [Socket.poll, Socket.read, if_pos hunread, hw.1]
    rfl
  | cons l rest =>
    have hl : Short l := hls l (by rw [hrest]; simp)
    have hwire' : e.ctx.pending ++ e.socket.unread = (l ++ ['\n']) ++ onWire rest := hwire
    have hunread : e.socket.unread ≠ [] := by
      intro hnil
      rw [hnil, List.append_nil] at hwire'
      exact hno (by rw [hwire']; simp)
    have hmin : min (len + 1) (256 - e.ctx.pending.length) = 256 - e.ctx.pending.length := by
      omega
    refine Or.inr ?_
    rw [Socket.poll, Socket.read, if_neg hunread, hmin]
    refine ⟨by simp, ?_⟩
    show '\n' ∈ e.ctx.pending ++ e.socket.unread.take (256 - e.ctx.pending.length)
    have htake : e.ctx.pending ++ e.socket.unread.take (256 - e.ctx.pending.length) =
        ((l ++ ['\n']) ++ onWire rest).take 256 := by
      rw [← hwire', List.take_append, List.take_of_length_le hp]
    have hshort : (l ++ ['\n']).length ≤ 256 := by
      rw [List.length_append, List.length_singleton]
      exact Nat.succ_le_succ hl.2
    rw [htake, List.take_append, List.take_of_length_le hshort]
    simp

theorem Reading.completes (h : Reading packet toStdout e) {ls : List Str} (hls : ∀ l ∈ ls, Short l)
    (hw : e.Whole ls) {a : Act} (ha : a.IsWhole) : e.Completes a := by
  cases a with
  | write bytes => trivial
  | close => trivial
  | iterate poll =>
    intro _ hno
    cases poll with
    | data len =>
      rcases h.full_read hls hw hno ha with ⟨-, hagain⟩ | ⟨-, hline⟩
      · exact Or.inl hagain
      · exact Or.inr hline
    | timeout => exact Or.inl rfl
    | error => exact absurd ha (by simp [Act.IsWhole, Poll.IsFull])

theorem poll_closed (poll : Poll) (room : Nat) (fd : Socket) :
    (fd.poll poll room).2.closed = fd.closed := by
  cases poll with
  | data len =>
    rw [Socket.poll, Socket.read]
    split_ifs <;> rfl
  | timeout => rfl
  | error => rfl

theorem iterate_closed (e : Exchange) (poll : Poll) :
    (e.iterate packet toStdout poll).socket.closed = e.socket.closed := by
  rw [iterate]
  by_cases hnone : e.response.result ≠ none
  · rw [if_pos hnone]
  · rw [if_neg hnone]
    have hclosed : (e.ctx.readString (Socket.poll poll) e.socket).2.2.closed = e.socket.closed := by
      rcases readString_fd e.ctx (Socket.poll poll) e.socket with h | ⟨room, h⟩
      · rw [h]
      · rw [h]
        exact poll_closed poll room e.socket
    cases hx : e.ctx.readString (Socket.poll poll) e.socket with
    | mk r x =>
      rw [hx] at hclosed
      cases r <;> exact hclosed

theorem Whole.iterate {ls : List Str} (hw : e.Whole ls) (poll : Poll) :
    (e.iterate packet toStdout poll).Whole ls :=
  ⟨(iterate_closed e poll).trans hw.1, (iterate_sent e poll).trans hw.2⟩

theorem Whole.step {ls : List Str} (hw : e.Whole ls) (packet : Str) (toStdout : Bool) {a : Act}
    (ha : a.IsWhole) :
    ∃ ls', (∀ l ∈ ls', Short l) ∧ (e.step packet toStdout a).Whole (ls ++ ls') := by
  cases a with
  | write bytes =>
    obtain ⟨ls', rfl, hls'⟩ := ha
    refine ⟨ls', hls', ?_⟩
    rw [Exchange.step, hw.1, if_neg Bool.false_ne_true]
    refine ⟨hw.1, ?_⟩
    show e.sent ++ onWire ls' = _
    rw [hw.2, onWire_append]
  | close => exact absurd ha (by simp [Act.IsWhole])
  | iterate poll => exact ⟨[], by simp, by rw [List.append_nil]; exact hw.iterate poll⟩

theorem nul_notMem_of_whole {ls : List Str} (hls : ∀ l ∈ ls, Short l) (hw : e.Whole ls) :
    nul ∉ e.sent := by
  rw [hw.2]
  exact nul_notMem_onWire fun l hl => (hls l hl).1

/-- With whole lines and full reads every read completes a line. -/
theorem reading_of_whole (packet : Str) (toStdout : Bool) {acts : List Act}
    (hacts : ∀ a ∈ acts, a.IsWhole) :
    Reading packet toStdout ((machine packet toStdout).run acts) ∧
      ∃ ls, (∀ l ∈ ls, Short l) ∧ ((machine packet toStdout).run acts).Whole ls := by
  induction acts using List.reverseRecOn with
  | nil => exact ⟨reading_init, [], by simp, rfl, rfl⟩
  | append_singleton acts a ih =>
    rw [Machine.run_concat]
    obtain ⟨h, ls, hls, hw⟩ := ih fun a' ha' => hacts a' (List.mem_append_left _ ha')
    have ha := hacts a (List.mem_append_right _ (List.mem_singleton_self _))
    obtain ⟨ls', hls', hw'⟩ := hw.step packet toStdout ha
    refine ⟨h.step (nul_notMem_of_whole hls hw) (h.completes hls hw ha), ls ++ ls', ?_, hw'⟩
    intro l hl
    rcases List.mem_append.mp hl with hl | hl
    · exact hls l hl
    · exact hls' l hl

/-! ### The response is read to its end -/

variable {ls : List Str}

theorem Reading.next_string (h : Reading packet toStdout e) (hls : ∀ l ∈ ls, Short l)
    (hw : e.Whole ls) (hnone : e.response.result = none) {len : Nat} (hlen : 255 ≤ len) :
    e.strings = ls ∨
      (e.iterate packet toStdout (.data len)).strings.length = e.strings.length + 1 := by
  have ha : (Act.iterate (.data len)).IsWhole := hlen
  obtain ⟨-, hmore | ⟨-, hagain⟩⟩ :=
    h.iterate (nul_notMem_of_whole hls hw) (h.completes hls hw ha)
  · exact Or.inr hmore
  · obtain ⟨hno, hagain⟩ := hagain hnone
    rcases h.full_read hls hw hno hlen with ⟨hall, -⟩ | ⟨hne, -⟩
    · exact Or.inl hall
    · exact absurd hagain hne

theorem Reading.strings_mono (h : Reading packet toStdout e) (hls : ∀ l ∈ ls, Short l)
    (hw : e.Whole ls) {poll : Poll} (hp : poll.IsFull) :
    e.strings.length ≤ (e.iterate packet toStdout poll).strings.length := by
  have ha : (Act.iterate poll).IsWhole := hp
  obtain ⟨-, hmore | ⟨hsame, -⟩⟩ := h.iterate (nul_notMem_of_whole hls hw) (h.completes hls hw ha)
  · omega
  · rw [hsame]

def answering (toStdout : Bool) (h : Response.Sound message noises reply)
    (hls : ∀ l ∈ Response.heard message noises reply ++ more, Short l) :
    (machine (message ++ ['\n']) toStdout).Ranking
      (fun e => Reading (message ++ ['\n']) toStdout e ∧
        e.Whole (Response.heard message noises reply ++ more))
      (fun _ a => a.IsQuiet) (fun _ a => a.isData) where
  rank e := (Response.heard message noises reply).length - e.strings.length
  keep := by
    rintro e a ⟨hr, hw⟩ hq
    cases a with
    | write bytes => exact absurd hq (by simp [Act.IsQuiet])
    | close => exact absurd hq (by simp [Act.IsQuiet])
    | iterate poll =>
      have ha : (Act.iterate poll).IsWhole := hq
      exact ⟨hr.step (nul_notMem_of_whole hls hw) (hr.completes hls hw ha), hw.iterate poll⟩
  le := by
    rintro e a ⟨hr, hw⟩ hq
    cases a with
    | write bytes => exact absurd hq (by simp [Act.IsQuiet])
    | close => exact absurd hq (by simp [Act.IsQuiet])
    | iterate poll => exact Nat.sub_le_sub_left (hr.strings_mono hls hw hq) _
  lt := by
    rintro e a ⟨hr, hw⟩ hq ha
    cases a with
    | write bytes => exact absurd hq (by simp [Act.IsQuiet])
    | close => exact absurd hq (by simp [Act.IsQuiet])
    | iterate poll =>
      cases poll with
      | timeout => exact absurd ha (by simp [Act.isData])
      | error => exact absurd ha (by simp [Act.isData])
      | data len =>
        have hp := hr.strings_prefix (fun l hl => (hls l hl).1) (by rw [hw.2])
        have hfull : (Poll.data len).IsFull := hq
        have hmono := hr.strings_mono hls hw hfull
        show _ - (e.iterate _ _ (.data len)).strings.length ≤ _
        rcases Response.understood_of_prefix h toStdout hp with ⟨hlt, hnone⟩ | ⟨hge, -⟩
        · rw [← hr.response] at hnone
          rcases hr.next_string hls hw hnone hq with hall | hmore
          · rw [hall, List.length_append] at hlt
            omega
          · omega
        · omega

/-- **A response is read to its end**: when the daemon writes whole lines that fit the
buffer and the kernel gives all there is, the command returns what the daemon said as soon
as it was given data for every line of it. -/
theorem whole_exchange (toStdout : Bool) (message : Str) (noises : List Noise) (reply : Reply)
    (more : List Str) (acts quiet : List Act) (hsound : Response.Sound message noises reply)
    (hls : ∀ l ∈ Response.heard message noises reply ++ more, Short l)
    (hacts : ∀ a ∈ acts, a.IsWhole) (hquiet : ∀ a ∈ quiet, a.IsQuiet)
    (hsent : ((machine (message ++ ['\n']) toStdout).run acts).sent =
      onWire (Response.heard message noises reply ++ more))
    (hn : (Response.heard message noises reply).length ≤
      ((machine (message ++ ['\n']) toStdout).run acts).strings.length +
        quiet.countP Act.isData) :
    Response.Understood reply toStdout
      ((machine (message ++ ['\n']) toStdout).run (acts ++ quiet)).response := by
  obtain ⟨hr, -, -, hclosed, -⟩ :=
    reading_of_whole (message ++ ['\n']) toStdout hacts
  have hlaw := And.intro hr (And.intro hclosed hsent)
  rw [Machine.run_append]
  have halways : (machine (message ++ ['\n']) toStdout).AlwaysFrom (fun _ a => a.IsQuiet)
      ((machine (message ++ ['\n']) toStdout).run acts) quiet :=
    Machine.alwaysFrom_of_forall (fun a ha _ => hquiet a ha) _
  obtain ⟨hr', -, hsent'⟩ := (answering toStdout hsound hls).keep_runFrom hlaw halways
  have hzero := (answering toStdout hsound hls).rank_eq_zero hlaw halways (by
    rw [Machine.countFrom_countP]
    exact Nat.sub_le_iff_le_add'.mpr hn)
  have hp := hr'.strings_prefix (fun l hl => (hls l hl).1) (by rw [hsent'])
  rcases Response.understood_of_prefix hsound toStdout hp with ⟨hlt, -⟩ | ⟨-, hunderstood⟩
  · exact absurd (Nat.sub_eq_zero_iff_le.mp hzero) (by omega)
  · rw [hr'.response]
    exact hunderstood

def atOnce : List Act :=
  [.write (onWire (Response.heard "LIST".toList noisy (.success ["tv".toList]))),
    .write (onWire ["0002 00 KEY_UP tv".toList])]

theorem whole_exchange_atOnce : Response.Understood (.success ["tv".toList]) false
    ((machine ("LIST".toList ++ ['\n']) false).run
      (atOnce ++ .iterate .timeout :: List.replicate 11 (.iterate (.data 255)))).response :=
  whole_exchange false "LIST".toList noisy (.success ["tv".toList]) ["0002 00 KEY_UP tv".toList]
    atOnce _ sound_noisy (by decide)
    (by
      intro a ha
      rcases List.mem_pair.mp ha with rfl | rfl
      · exact ⟨_, rfl, by decide⟩
      · exact ⟨_, rfl, by decide⟩)
    (by simp [Act.IsQuiet, Poll.IsFull]) (by decide) (by decide)

end Exchange

end Orbiter.Lirc
