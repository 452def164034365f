import Orbiter.Lirc.NextCode
import Orbiter.Machine.Ranking

/-!
# A connection to the lirc daemon

The daemon writes its lines into the socket, the client calls `lirc_nextcode`.  The
kernel cuts the stream where it likes, a read may be interrupted, and the daemon may
close its end.

* `Held`: what was sent is what was delivered, what the buffer holds and what is unread.
* `lines_in_order`: **the lines are delivered whole and in order**, however they are cut.
* `buffer_bound`: the buffer stays within one packet of the longest line.
* `all_lines_arrive`: enough calls deliver everything.
* `hears_again_iff`: what becomes of a second connection.
-/

namespace Orbiter.Lirc

open Cxx Frames
open Main (NextCode delivered)

structure Socket where
  unread : Str
  closed : Bool
  deriving DecidableEq

/-- `read` of at most `len + 1` bytes at a time, `none` when it is interrupted. -/
def Socket.read (len : Option Nat) (room : Nat) (fd : Socket) : ReadResult × Socket :=
  match len with
  | none => (.failed, fd)
  | some len =>
    if fd.unread = [] then (if fd.closed then .bytes [] else .again, fd)
    else
      (.bytes (fd.unread.take (min (len + 1) room)),
        { fd with unread := fd.unread.drop (min (len + 1) room) })

/-- The client's statics, its socket, and what was sent and what the calls gave. -/
structure Session where
  buffer : Buffer
  socket : Socket
  sent : Str
  results : List NextCode
  deriving DecidableEq

/-- What the daemon, the kernel and the client do. -/
inductive Act
  | write (s : Str)
  | close
  | nextcode (len : Option Nat)

def Session.call (heap : Nat → Char) (s : Session) (len : Option Nat) :
    NextCode × Buffer × Socket :=
  lircNextcode heap (Socket.read len) s.buffer s.socket

def Session.step (heap : Nat → Char) (s : Session) : Act → Session
  | .write bytes =>
    if s.socket.closed then s
    else
      { s with
        socket := { s.socket with unread := s.socket.unread ++ bytes }
        sent := s.sent ++ bytes }
  | .close => { s with socket := { s.socket with closed := true } }
  | .nextcode len =>
    { s with
      buffer := (s.call heap len).2.1
      socket := (s.call heap len).2.2
      results := s.results ++ [(s.call heap len).1] }

def session (heap : Nat → Char) (b : Buffer) : Machine Session Act where
  init := ⟨b, ⟨[], false⟩, [], []⟩
  step := Session.step heap

variable {heap : Nat → Char} {b : Buffer}

/-! ### Reads -/

theorem reads_read (len : Option Nat) : Reads Socket.unread (Socket.read len) := by
  intro room fd
  cases len with
  | none => rfl
  | some len =>
    rw [Socket.read]
    by_cases h : fd.unread = []
    · rw [if_pos h]
      cases fd.closed with
      | true => exact ⟨Nat.zero_le _, rfl⟩
      | false => rfl
    · rw [if_neg h]
      exact ⟨(List.length_take_le _ _).trans (min_le_right _ _), (List.take_append_drop _ _).symm⟩

/-- A read that is not interrupted takes something, as long as there is something. -/
theorem read_lt {len room : Nat} (hroom : 0 < room) (fd : Socket) :
    (Socket.read (some len) room fd).2.unread.length ≤ fd.unread.length - 1 := by
  rw [Socket.read]
  by_cases h : fd.unread = []
  · rw [if_pos h]
    show fd.unread.length ≤ _
    rw [h]
    exact Nat.zero_le _
  · rw [if_neg h]
    show (fd.unread.drop _).length ≤ _
    rw [List.length_drop]
    omega

/-! ### Nothing is lost -/

/-- What was sent is what was delivered, what the buffer holds and what is unread. -/
structure Held (heap : Nat → Char) (s : Session) : Prop where
  conserved : s.sent =
    (delivered s.results).flatten ++ (s.buffer.held heap ++ s.socket.unread)
  isFrame : ∀ code ∈ delivered s.results, IsFrame '\n' code
  length : (s.buffer.held heap).length = s.buffer.endLen
  fits : s.buffer.endLen ≤ s.buffer.packetSize

theorem delivered_concat (results : List NextCode) (r : NextCode) :
    delivered (results ++ [r]) = delivered results ++ r.code.toList := by
  rw [delivered, delivered, List.filterMap_append]
  cases hr : r.code with
  | none => simp [hr]
  | some code => simp [hr]

theorem Held.called {s : Session} (h : Held heap s) (hnul : nul ∉ s.sent) (len : Option Nat) :
    Called heap Socket.unread s.buffer s.socket (s.call heap len) := by
  refine called_lircNextcode (reads_read len) (fun hmem => hnul ?_) h.length h.fits
  rw [h.conserved]
  exact List.mem_append_right _ hmem

theorem Held.step {s : Session} (h : Held heap s) (a : Act) (hnul : nul ∉ (s.step heap a).sent) :
    Held heap (s.step heap a) := by
  cases a with
  | write bytes =>
    rw [Session.step] at hnul ⊢
    split_ifs with hclosed
    · exact h
    · refine ⟨?_, h.isFrame, h.length, h.fits⟩
      show s.sent ++ bytes = _ ++ (_ ++ (s.socket.unread ++ bytes))
      rw [h.conserved]
      simp only [List.append_assoc]
  | close => exact ⟨h.conserved, h.isFrame, h.length, h.fits⟩
  | nextcode len =>
    have hcall := h.called hnul len
    refine ⟨?_, ?_, hcall.length, hcall.fits⟩
    · show s.sent = (delivered (s.results ++ [_])).flatten ++ _
      rw [h.conserved, hcall.conserved, delivered_concat, List.flatten_append, List.append_assoc]
      congr 1
      cases (s.call heap len).1.code with
      | none => rfl
      | some code =>
        rw [Option.toList_some, List.flatten_singleton, Option.getD_some]
        rfl
    · intro code hcode
      change code ∈ delivered (s.results ++ [_]) at hcode
      rw [delivered_concat, List.mem_append] at hcode
      rcases hcode with hcode | hcode
      · exact h.isFrame code hcode
      · exact hcall.isFrame code (Option.mem_toList.mp hcode)

/-- What is delivered and what is still to come are the lines sent. -/
theorem Held.frames_sent {s : Session} (h : Held heap s) : frames '\n' s.sent =
    delivered s.results ++ frames '\n' (s.buffer.held heap ++ s.socket.unread) := by
  conv_lhs => rw [h.conserved]
  exact frames_flatten_append h.isFrame _

theorem sent_mono (heap : Nat → Char) (s : Session) (a : Act) :
    s.sent <+: (s.step heap a).sent := by
  cases a with
  | write bytes =>
    rw [Session.step]
    split_ifs
    · exact List.prefix_rfl
    · exact List.prefix_append _ _
  | close => exact List.prefix_rfl
  | nextcode len => exact List.prefix_rfl

theorem held_lircDeinit_nil (hb : b.endLen = 0) : (lircDeinit b).held heap = [] := by
  show (List.range b.endLen).map _ = []
  rw [hb]
  rfl

theorem held_session (hb : b.endLen = 0) (acts : List Act)
    (hnul : nul ∉ ((session heap (lircDeinit b)).run acts).sent) :
    Held heap ((session heap (lircDeinit b)).run acts) := by
  induction acts using List.reverseRecOn with
  | nil =>
    refine ⟨?_, by simp [session, delivered], ?_, ?_⟩
    · show [] = [] ++ ((lircDeinit b).held heap ++ [])
      rw [held_lircDeinit_nil hb]
      rfl
    · show ((lircDeinit b).held heap).length = b.endLen
      rw [held_lircDeinit_nil hb, hb]
      rfl
    · show b.endLen ≤ _
      rw [hb]
      exact Nat.zero_le _
  | append_singleton acts a ih =>
    rw [Machine.run_concat] at hnul ⊢
    exact (ih fun hmem => hnul ((sent_mono heap _ a).subset hmem)).step a hnul

/-- **However the stream is cut, the lines delivered, and behind them those in the buffer
and in the socket, are the lines sent.** -/
theorem lines_in_order (heap : Nat → Char) (acts : List Act)
    (hnul : nul ∉ ((session heap .fresh).run acts).sent) :
    frames '\n' ((session heap .fresh).run acts).sent =
      delivered ((session heap .fresh).run acts).results ++
        frames '\n' (((session heap .fresh).run acts).buffer.held heap ++
          ((session heap .fresh).run acts).socket.unread) :=
  Held.frames_sent (held_session (b := .fresh) rfl acts hnul)

/-- Two lines, written in two pieces and read in others, with an interrupt behind them. -/
def pieces : List Act :=
  [.write "KEY_1\nKEY".toList, .nextcode (some 3), .write "_2\n".toList, .nextcode (some 99),
    .nextcode (some 99), .nextcode none]

theorem lines_in_order_pieces :
    delivered ((session (fun _ => 'x') .fresh).run pieces).results =
        ["KEY_1\n".toList, "KEY_2\n".toList] ∧
      frames '\n' ((session (fun _ => 'x') .fresh).run pieces).sent =
        delivered ((session (fun _ => 'x') .fresh).run pieces).results ++
          frames '\n' (((session (fun _ => 'x') .fresh).run pieces).buffer.held (fun _ => 'x') ++
            ((session (fun _ => 'x') .fresh).run pieces).socket.unread) :=
  ⟨by decide, lines_in_order _ pieces (by decide)⟩

/-! ### The size of the buffer -/

/-- No stretch of the stream without a line end is longer. -/
def Stretch (m : Nat) (sent : Str) : Prop := ∀ l, '\n' ∉ l → l <:+: sent → l.length ≤ m

theorem Stretch.mono {m : Nat} {s t : Str} (h : Stretch m t) (hp : s <+: t) : Stretch m s :=
  fun l hl hs => h l hl (hs.trans hp.isInfix)

/-- A buffer that grows holds one long stretch. -/
theorem Held.packetSize_call {s : Session} (h : Held heap s) (hnul : nul ∉ s.sent)
    (len : Option Nat) {m : Nat} (hm : Stretch m s.sent)
    (hsize : s.buffer.packetSize ≤ m + packetSize) :
    (s.call heap len).2.1.packetSize ≤ m + packetSize := by
  rcases (h.called hnul len).grows with hsame | ⟨hgrown, hfull, hline⟩
  · rw [hsame]
    exact hsize
  · have hheld : s.buffer.held heap <:+: s.sent := by
      rw [h.conserved, ← List.append_assoc]
      exact List.infix_append _ _ _
    have hlen := hm _ hline hheld
    rw [h.length] at hlen
    omega

/-- **The buffer never overflows, a read always has room in it, and it is never more than
one packet larger than the longest line.** -/
theorem buffer_bound (heap : Nat → Char) (acts : List Act) (m : Nat)
    (hnul : nul ∉ ((session heap .fresh).run acts).sent)
    (hm : Stretch m ((session heap .fresh).run acts).sent) :
    (((session heap .fresh).run acts).buffer.held heap).length ≤
        ((session heap .fresh).run acts).buffer.packetSize ∧
      ((session heap .fresh).run acts).buffer.endLen <
        ((session heap .fresh).run acts).buffer.grow ∧
      ((session heap .fresh).run acts).buffer.packetSize ≤ m + packetSize := by
  have h : Held heap ((session heap .fresh).run acts) := held_session (b := .fresh) rfl acts hnul
  refine ⟨h.length.trans_le h.fits, grow_room h.fits, ?_⟩
  clear h
  induction acts using List.reverseRecOn with
  | nil => exact Nat.le_add_left _ _
  | append_singleton acts a ih =>
    rw [Machine.run_concat] at hnul hm ⊢
    have hp := sent_mono heap ((session heap .fresh).run acts) a
    have hnul' : nul ∉ ((session heap .fresh).run acts).sent := fun hmem => hnul (hp.subset hmem)
    have hsize := ih hnul' (hm.mono hp)
    cases a with
    | write bytes =>
      show (Session.step heap _ _).buffer.packetSize ≤ _
      rw [Session.step]
      split_ifs
      · exact hsize
      · exact hsize
    | close => exact hsize
    | nextcode len =>
      exact (held_session (b := .fresh) rfl acts hnul').packetSize_call hnul' len
        (hm.mono hp) hsize

theorem buffer_bound_pieces :
    (((session (fun _ => 'x') .fresh).run pieces).buffer.held (fun _ => 'x')).length ≤
        ((session (fun _ => 'x') .fresh).run pieces).buffer.packetSize ∧
      ((session (fun _ => 'x') .fresh).run pieces).buffer.endLen <
        ((session (fun _ => 'x') .fresh).run pieces).buffer.grow ∧
      ((session (fun _ => 'x') .fresh).run pieces).buffer.packetSize ≤ 12 + packetSize :=
  buffer_bound _ pieces 12 (by decide) fun _ _ h => h.length_le

/-! ### Everything arrives -/

def Session.waiting (heap : Nat → Char) (s : Session) : Nat :=
  s.socket.unread.length + (frames '\n' (s.buffer.held heap ++ s.socket.unread)).length

def Act.IsQuiet : Act → Prop
  | .write _ => False
  | .close => True
  | .nextcode _ => True

/-- A call whose read, if it makes one, is not interrupted. -/
def Act.isCall : Act → Bool
  | .write _ => false
  | .close => false
  | .nextcode len => len.isSome

theorem Held.waiting_call {s : Session} (h : Held heap s) (hnul : nul ∉ s.sent)
    (len : Option Nat) :
    (s.step heap (.nextcode len)).waiting heap ≤ s.waiting heap - if len.isSome then 1 else 0 := by
  have hcall := h.called hnul len
  have hroom : 0 < s.buffer.grow - s.buffer.endLen := Nat.sub_pos_of_lt (grow_room h.fits)
  have hreads : (s.call heap len).2.2 = _ ∨ (s.call heap len).1.code.isSome = true ∧ _ :=
    lircNextcode_reads
  have hunread : (Socket.read len (s.buffer.grow - s.buffer.endLen) s.socket).2.unread.length ≤
      s.socket.unread.length - if len.isSome then 1 else 0 := by
    cases len with
    | none => exact Nat.le_refl _
    | some len => exact read_lt hroom _
  show (s.call heap len).2.2.unread.length + (frames '\n' ((s.call heap len).2.1.held heap ++
    (s.call heap len).2.2.unread)).length ≤ _
  rw [Session.waiting, hcall.conserved]
  cases hcode : (s.call heap len).1.code with
  | some code =>
    -- one line less, and no more bytes
    rw [Option.getD_some, frames_of_isFrame (hcall.isFrame code hcode), List.length_cons]
    have hle : (s.call heap len).2.2.unread.length ≤ s.socket.unread.length := by
      rcases hreads with hr | ⟨-, hr⟩
      · rw [hr]
        omega
      · exact (congrArg (fun fd => fd.unread.length) hr).le
    split_ifs <;> omega
  | none =>
    -- the same lines, and fewer bytes unless there were none
    rw [Option.getD_none, List.nil_append]
    rcases hreads with hr | ⟨hsome, -⟩
    · by_cases hnil : s.socket.unread.length = 0
      · have hnil' : (s.call heap len).2.2.unread = [] := by
          rw [← List.length_eq_zero_iff, hr]
          omega
        rw [hnil', List.append_nil, frames_of_notMem (hcall.noLine hcode)]
        exact Nat.zero_le _
      · rw [← hr] at hunread
        split_ifs at hunread ⊢ <;> omega
    · rw [hcode] at hsome
      exact absurd hsome (by simp)

def delivering (heap : Nat → Char) (b : Buffer) :
    (session heap b).Ranking (fun s => Held heap s ∧ nul ∉ s.sent) (fun _ a => a.IsQuiet)
      (fun _ a => a.isCall) where
  rank := Session.waiting heap
  keep := by
    rintro s a ⟨h, hnul⟩ hq
    cases a with
    | write bytes => exact absurd hq (by simp [Act.IsQuiet])
    | close => exact ⟨h.step .close hnul, hnul⟩
    | nextcode len => exact ⟨h.step (.nextcode len) hnul, hnul⟩
  le := by
    rintro s a ⟨h, hnul⟩ hq
    cases a with
    | write bytes => exact absurd hq (by simp [Act.IsQuiet])
    | close => exact Nat.le_refl _
    | nextcode len => exact (h.waiting_call hnul len).trans (Nat.sub_le _ _)
  lt := by
    rintro s a ⟨h, hnul⟩ hq ha
    cases a with
    | write bytes => exact absurd hq (by simp [Act.IsQuiet])
    | close => exact absurd ha (by simp [Act.isCall])
    | nextcode len =>
      have hle := h.waiting_call hnul len
      rw [show len.isSome = true from ha] at hle
      exact hle

theorem sent_runFrom (heap : Nat → Char) (b : Buffer) {acts : List Act}
    (hq : ∀ a ∈ acts, a.IsQuiet) (s : Session) :
    ((session heap b).runFrom s acts).sent = s.sent := by
  induction acts generalizing s with
  | nil => rfl
  | cons a acts ih =>
    rw [Machine.runFrom_cons, ih fun a' ha' => hq a' (List.mem_cons_of_mem _ ha')]
    cases a with
    | write bytes => exact absurd (hq _ List.mem_cons_self) (by simp [Act.IsQuiet])
    | close => rfl
    | nextcode len => rfl

theorem Held.delivered_runFrom {s : Session} (h : Held heap s) (hnul : nul ∉ s.sent)
    {quiet : List Act} (hq : ∀ a ∈ quiet, a.IsQuiet)
    (hn : s.waiting heap ≤ quiet.countP Act.isCall) :
    delivered ((session heap b).runFrom s quiet).results = frames '\n' s.sent := by
  have halways : (session heap b).AlwaysFrom (fun _ a => a.IsQuiet) s quiet :=
    Machine.alwaysFrom_of_forall (fun a ha _ => hq a ha) s
  have hkeep := (delivering heap b).keep_runFrom ⟨h, hnul⟩ halways
  have hzero := (delivering heap b).rank_eq_zero ⟨h, hnul⟩ halways
    (hn.trans (Machine.countFrom_countP _ _ s quiet).ge)
  obtain ⟨-, hframes⟩ := Nat.add_eq_zero_iff.mp hzero
  rw [List.length_eq_zero_iff] at hframes
  rw [← sent_runFrom heap b hq s, hkeep.1.frames_sent, hframes, List.append_nil]

/-- **Every line arrives**: once the daemon is silent, as many calls as there are bytes to
read and lines to deliver deliver them all, whatever interrupts come in between. -/
theorem all_lines_arrive (heap : Nat → Char) (acts quiet : List Act)
    (hnul : nul ∉ ((session heap .fresh).run acts).sent) (hq : ∀ a ∈ quiet, a.IsQuiet)
    (hn : ((session heap .fresh).run acts).waiting heap ≤ quiet.countP Act.isCall) :
    delivered ((session heap .fresh).run (acts ++ quiet)).results =
      frames '\n' ((session heap .fresh).run acts).sent := by
  have h : Held heap ((session heap .fresh).run acts) := held_session (b := .fresh) rfl acts hnul
  rw [Machine.run_append]
  exact h.delivered_runFrom hnul hq hn

/-- Two lines, read a byte at a time, with the daemon gone. -/
def byteByByte : List Act := .close :: List.replicate 14 (.nextcode (some 0))

theorem all_lines_arrive_byteByByte :
    delivered ((session (fun _ => 'x') .fresh).run
        ([.write "KEY_1\nKEY_2\n".toList] ++ byteByByte)).results =
      frames '\n' ((session (fun _ => 'x') .fresh).run [.write "KEY_1\nKEY_2\n".toList]).sent :=
  all_lines_arrive _ _ byteByByte (by decide) (by simp [byteByByte, Act.IsQuiet]) (by decide)

/-! ### A second connection -/

/-- With a zero byte in the first place of the buffer nothing is delivered. -/
theorem delivered_eq_nil {n : Nat} (hb : b.endLen = n + 1) (acts : List Act) :
    delivered ((session heap (lircDeinit b)).run acts).results = [] := by
  have hdeaf : (∃ t, ((session heap (lircDeinit b)).run acts).buffer.held heap = nul :: t) ∧
      delivered ((session heap (lircDeinit b)).run acts).results = [] := by
    induction acts using List.reverseRecOn with
    | nil => exact ⟨held_lircDeinit hb, rfl⟩
    | append_singleton acts a ih =>
      rw [Machine.run_concat]
      obtain ⟨hheld, hnone⟩ := ih
      cases a with
      | write bytes =>
        show (∃ t, (Session.step heap _ _).buffer.held heap = nul :: t) ∧
          delivered (Session.step heap _ _).results = []
        rw [Session.step]
        split_ifs
        · exact ⟨hheld, hnone⟩
        · exact ⟨hheld, hnone⟩
      | close => exact ⟨hheld, hnone⟩
      | nextcode len =>
        obtain ⟨hcode, hheld'⟩ : (Session.call heap _ len).1.code = none ∧
          ∃ t, (Session.call heap _ len).2.1.held heap = nul :: t := deaf_lircNextcode hheld
        refine ⟨hheld', ?_⟩
        show delivered (_ ++ [(Session.call heap _ len).1]) = []
        rw [delivered_concat, hnone]
        exact congrArg Option.toList hcode
  exact hdeaf.2

def ping : List Act := [.write ['\n'], .nextcode (some 0), .nextcode (some 0)]

theorem delivered_ping (hb : b.endLen = 0) :
    delivered ((session heap (lircDeinit b)).run ping).results = [['\n']] := by
  have hnul : nul ∉ ((session heap (lircDeinit b)).run [.write ['\n']]).sent := by
    show nul ∉ ['\n']
    decide
  have hwait : ((session heap (lircDeinit b)).run [.write ['\n']]).waiting heap = 2 := by
    show 1 + (frames '\n' ((lircDeinit b).held heap ++ ['\n'])).length = 2
    rw [held_lircDeinit_nil hb]
    rfl
  have hq : ∀ a ∈ List.replicate 2 (Act.nextcode (some 0)), a.IsQuiet := by
    simp [Act.IsQuiet]
  exact (held_session hb [.write ['\n']] hnul).delivered_runFrom (b := lircDeinit b) hnul hq
    hwait.le

/-- **A client that connects again hears a line only if it had nothing of a line in its
buffer when it closed the first connection**; otherwise it never hears one again. -/
theorem hears_again_iff (heap : Nat → Char) (acts : List Act)
    (hnul : nul ∉ ((session heap .fresh).run acts).sent) :
    (∃ acts', delivered ((session heap (lircDeinit ((session heap .fresh).run acts).buffer)).run
        acts').results ≠ []) ↔
      ((session heap .fresh).run acts).sent =
        (delivered ((session heap .fresh).run acts).results).flatten ++
          ((session heap .fresh).run acts).socket.unread := by
  have h : Held heap ((session heap .fresh).run acts) := held_session (b := .fresh) rfl acts hnul
  generalize (session heap .fresh).run acts = s at h ⊢
  have hnil : s.sent = (delivered s.results).flatten ++ s.socket.unread ↔ s.buffer.endLen = 0 := by
    rw [← h.length, List.length_eq_zero_iff, h.conserved, List.append_cancel_left_eq,
      List.append_left_eq_self]
  rw [hnil]
  constructor
  · rintro ⟨acts', hne⟩
    by_contra hb
    obtain ⟨n, hn⟩ := Nat.exists_eq_succ_of_ne_zero hb
    exact hne (delivered_eq_nil hn acts')
  · intro hb
    refine ⟨ping, ?_⟩
    rw [delivered_ping hb]
    simp

/-- A line and a half have been read. -/
theorem hears_again_iff_half :
    (∃ acts', delivered ((session (fun _ => 'x') (lircDeinit ((session (fun _ => 'x') .fresh).run
        [.write "KEY_1\nKEY".toList, .nextcode (some 99)]).buffer)).run acts').results ≠ []) ↔
      ((session (fun _ => 'x') .fresh).run
          [.write "KEY_1\nKEY".toList, .nextcode (some 99)]).sent =
        (delivered ((session (fun _ => 'x') .fresh).run
          [.write "KEY_1\nKEY".toList, .nextcode (some 99)]).results).flatten ++
          ((session (fun _ => 'x') .fresh).run
            [.write "KEY_1\nKEY".toList, .nextcode (some 99)]).socket.unread :=
  hears_again_iff _ _ (by decide)

end Orbiter.Lirc
