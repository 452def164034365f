import Orbiter.Lirc.Response
import Orbiter.Lirc.NextCode

/-!
# `read_string`

`lirc_command_run` takes the lines of a response out of a buffer of fixed size.  A line is
ended in place with a zero byte; the next call moves what is behind it to the front and
reads once when that holds no line end.  Nothing ends what is read but what was in the
buffer before, and a line that is not complete is taken as it is.

* `Ready`: what the buffer is between two calls.
* `readString_of_complete`: **a call whose read completes a line gives that line**, and
  never a stale byte.
-/

namespace Orbiter.Lirc

open Cxx Frames

/-- The reading part of `lirc_cmd_ctx`: the bytes of the buffer, the first free index, and
the index `next` points to. -/
structure CmdCtx where
  buffer : Str
  head : Nat
  next : Option Nat
  deriving DecidableEq

/-- The result of a call: 0, EAGAIN, or another error. -/
inductive Fill
  | ok
  | again
  | failed
  deriving DecidableEq

namespace CmdCtx

def init : CmdCtx := ⟨List.replicate 257 nul, 0, none⟩

variable (c : CmdCtx)

/-- The remaining data moves to the start of the buffer, over the line before. -/
def shift : CmdCtx :=
  match c.next with
  | none => c
  | some 0 => c
  | some (k + 1) =>
    let head := c.head - (k + 1)
    { buffer := ((c.buffer.drop (k + 1)).take head ++ c.buffer.drop head).set head nul
      head := head
      next := some 0 }

def hasLine : Bool :=
  match c.next with
  | none => false
  | some k => '\n' ∈ cString (c.buffer.drop k)

/-- `fill_string`: one read behind the head, of what there is room for. -/
def fillString {σ : Type*} (read : Nat → σ → ReadResult × σ) (fd : σ) : Fill × CmdCtx × σ :=
  match read (256 - c.head) fd with
  | (.again, fd) => (.again, c, fd)
  | (.failed, fd) => (.failed, { c with head := 0 }, fd)
  | (.bytes s, fd) =>
    (.ok,
      { buffer := c.buffer.take c.head ++ s ++ c.buffer.drop (c.head + s.length)
        head := c.head + s.length
        next := some 0 }, fd)

/-- The current line is separated from the remaining ones, if it is complete. -/
def separate : CmdCtx :=
  match takeFrame '\n' (cString c.buffer) with
  | some (line, _) =>
    { c with buffer := c.buffer.set (line.length - 1) nul, next := some line.length }
  | none => { c with next := none }

/-- `read_string`; the string it gives is the one at the start of the buffer. -/
def readString {σ : Type*} (read : Nat → σ → ReadResult × σ) (fd : σ) : Fill × CmdCtx × σ :=
  if c.shift.hasLine then (.ok, c.shift.separate, fd)
  else
    match c.shift.fillString read fd with
    | (.ok, c, fd) => (.ok, c.separate, fd)
    | (.again, c, fd) => (.again, c, fd)
    | (.failed, c, fd) => (.failed, c, fd)

def pending : Str :=
  match c.next with
  | none => c.buffer.take c.head
  | some k => (c.buffer.take c.head).drop k

end CmdCtx

/-! ### The buffer between two calls -/

/-- The buffer holds the bytes pending, behind the line given last. -/
inductive Ready : CmdCtx → Str → Prop
  | fresh (buffer : Str) (h : buffer.length = 257) : Ready ⟨buffer, 0, none⟩ []
  | front (p stale : Str) (h : (p ++ nul :: stale).length = 257) :
      Ready ⟨p ++ nul :: stale, p.length, some 0⟩ p
  | behind (line p stale : Str) (hline : line ≠ [])
      (h : (line ++ p ++ stale).length = 257) (hp : line.length + p.length ≤ 256) :
      Ready ⟨line ++ p ++ stale, line.length + p.length, some line.length⟩ p

variable {c : CmdCtx} {p : Str}

theorem Ready.pending (h : Ready c p) : c.pending = p := by
  cases h with
  | fresh buffer h => rfl
  | front _ stale h => exact List.take_left
  | behind line _ stale hline h hp =>
    show ((line ++ p ++ stale).take (line.length + p.length)).drop line.length = p
    rw [← List.length_append, List.take_left, List.drop_left]

theorem Ready.length_le (h : Ready c p) : p.length ≤ 256 := by
  cases h with
  | fresh buffer h => exact Nat.zero_le _
  | front _ stale h =>
    rw [List.length_append, List.length_cons] at h
    omega
  | behind line _ stale hline h hp => omega

/-- Behind the move the bytes pending are at the start, ended by a zero byte. -/
theorem Ready.shift (h : Ready c p) :
    (∃ buffer : Str, buffer.length = 257 ∧ p = [] ∧ c.shift = ⟨buffer, 0, none⟩) ∨
      ∃ stale : Str, (p ++ nul :: stale).length = 257 ∧
        c.shift = ⟨p ++ nul :: stale, p.length, some 0⟩ := by
  cases h with
  | fresh buffer h => exact Or.inl ⟨buffer, h, rfl, rfl⟩
  | front _ stale h => exact Or.inr ⟨stale, h, rfl⟩
  | behind line _ stale hline h hp =>
    obtain ⟨a, line, rfl⟩ := List.exists_cons_of_ne_nil hline
    have hlen : (a :: line).length + p.length - (line.length + 1) = p.length := by
      rw [List.length_cons]
      omega
    obtain ⟨b, t, ht⟩ : ∃ b t, (a :: line ++ p ++ stale).drop p.length = b :: t := by
      refine List.exists_cons_of_ne_nil fun hnil => ?_
      rw [List.drop_eq_nil_iff, h] at hnil
      omega
    refine Or.inr ⟨t, ?_, ?_⟩
    · have hdrop := congrArg List.length ht
      rw [List.length_drop, h, List.length_cons] at hdrop
      rw [List.length_append, List.length_cons]
      omega
    · show CmdCtx.mk _ _ _ = _
      rw [hlen, ht, ← List.length_cons (a := a), List.append_assoc, List.drop_left, List.take_left,
        List.set_append_right _ _ (Nat.le_refl _), Nat.sub_self]
      rfl

/-! ### One call -/

theorem cString_append {s : Str} (h : nul ∉ s) (t : Str) : cString (s ++ t) = s ++ cString t := by
  have hall : ∀ c ∈ s, (decide (c ≠ nul)) = true := by
    intro c hc
    rw [decide_eq_true_iff]
    rintro rfl
    exact h hc
  rw [cString, List.takeWhile_append_of_pos hall]
  rfl

/-- A line that is there is ended in place. -/
theorem separate_line {l rest stale : Str} (hl : '\n' ∉ l) (hnul : nul ∉ l ++ '\n' :: rest)
    (hlen : (l ++ '\n' :: rest ++ stale).length = 257)
    (hp : l.length + 1 + rest.length ≤ 256) (next : Option Nat) :
    Ready (CmdCtx.separate ⟨l ++ '\n' :: rest ++ stale, l.length + 1 + rest.length, next⟩) rest ∧
      cString (CmdCtx.separate
        ⟨l ++ '\n' :: rest ++ stale, l.length + 1 + rest.length, next⟩).buffer = l := by
  have hframe : takeFrame '\n' (cString (l ++ '\n' :: rest ++ stale)) =
      some (l ++ ['\n'], rest ++ cString stale) := by
    rw [cString_append hnul, List.append_assoc, List.cons_append]
    exact takeFrame_append hl _
  have hset : (l ++ '\n' :: rest ++ stale).set ((l ++ ['\n']).length - 1) nul =
      (l ++ [nul]) ++ rest ++ stale := by
    rw [List.length_append, List.length_singleton, Nat.add_sub_cancel, List.append_assoc,
      List.set_append_right _ _ (Nat.le_refl _), Nat.sub_self, List.cons_append, List.set_cons_zero]
    simp
  have hsame : (l ++ ['\n']).length = (l ++ [nul]).length := by simp
  have hhead : l.length + 1 + rest.length = (l ++ [nul]).length + rest.length := by simp
  rw [CmdCtx.separate, hframe]
  dsimp only
  rw [hset, hsame, hhead]
  constructor
  · refine .behind (l ++ [nul]) rest stale (by simp) ?_ ?_
    · rw [← hset, List.length_set, hlen]
    · rw [← hhead]
      exact hp
  · rw [List.append_assoc, List.append_assoc]
    exact cString_append_nul (fun h => hnul (List.mem_append_left _ h)) _

variable {σ : Type*} {read : Nat → σ → ReadResult × σ} {fd fd' : σ}

/-- A call reads once at most. -/
theorem readString_fd (c : CmdCtx) (read : Nat → σ → ReadResult × σ) (fd : σ) :
    (c.readString read fd).2.2 = fd ∨ ∃ room, (c.readString read fd).2.2 = (read room fd).2 := by
  rw [CmdCtx.readString]
  by_cases hline : c.shift.hasLine = true
  · rw [if_pos hline]
    exact Or.inl rfl
  · rw [if_neg hline, CmdCtx.fillString]
    refine Or.inr ⟨256 - c.shift.head, ?_⟩
    cases read (256 - c.shift.head) fd with
    | mk r fd' => cases r <;> rfl

/-- What a call that gives a line leaves behind. -/
def GivesLine (x : Fill × CmdCtx × σ) (bytes : Str) (fd : σ) : Prop :=
  ∃ l rest, bytes = l ++ '\n' :: rest ∧ '\n' ∉ l ∧ x.1 = .ok ∧ cString x.2.1.buffer = l ∧
    Ready x.2.1 rest ∧ x.2.2 = fd

/-- A line that is pending is given without a read. -/
theorem readString_of_line (h : Ready c p) (hnul : nul ∉ p) (hline : '\n' ∈ p) :
    GivesLine (c.readString read fd) p fd := by
  rcases h.shift with ⟨buffer, -, rfl, -⟩ | ⟨stale, hlen, hshift⟩
  · exact absurd hline List.not_mem_nil
  · have hhas : c.shift.hasLine = true := by
      rw [hshift]
      show decide ('\n' ∈ cString (p ++ nul :: stale)) = true
      rw [cString_append_nul hnul, decide_eq_true_iff]
      exact hline
    obtain ⟨l, rest, hl, rfl⟩ := exists_frame hline
    rw [CmdCtx.readString, if_pos hhas, hshift]
    have hhead : (l ++ '\n' :: rest).length = l.length + 1 + rest.length := by
      rw [List.length_append, List.length_cons]
      omega
    have hp : l.length + 1 + rest.length ≤ 256 := by
      rw [← hhead]
      rw [List.length_append, List.length_cons] at hlen
      omega
    obtain ⟨hready, hstring⟩ := separate_line hl hnul hlen hp (some 0)
    rw [← hhead] at hready hstring
    exact ⟨l, rest, rfl, hl, rfl, hstring, hready, rfl⟩

theorem Ready.toRead (h : Ready c p) (hnul : nul ∉ p) (hno : '\n' ∉ p) :
    c.shift.hasLine = false ∧ c.shift.head = p.length ∧ Ready c.shift p ∧
      ∃ stale : Str, (p ++ stale).length = 257 ∧ c.shift.buffer = p ++ stale := by
  rcases h.shift with ⟨buffer, hlen, rfl, hshift⟩ | ⟨stale, hlen, hshift⟩ <;> rw [hshift]
  · exact ⟨rfl, rfl, .fresh buffer hlen, buffer, hlen, rfl⟩
  · refine ⟨?_, rfl, .front p stale hlen, nul :: stale, hlen, rfl⟩
    show decide ('\n' ∈ cString (p ++ nul :: stale)) = false
    rw [cString_append_nul hnul, decide_eq_false_iff_not]
    exact hno

theorem readString_of_again (h : Ready c p) (hnul : nul ∉ p) (hno : '\n' ∉ p)
    (hread : read (256 - p.length) fd = (.again, fd')) :
    (c.readString read fd).1 = .again ∧ Ready (c.readString read fd).2.1 p ∧
      (c.readString read fd).2.2 = fd' := by
  obtain ⟨hhas, hhead, hready, -⟩ := h.toRead hnul hno
  rw [CmdCtx.readString, if_neg (by rw [hhas]; simp), CmdCtx.fillString, hhead, hread]
  exact ⟨rfl, hready, rfl⟩

/-- **A call whose read completes a line gives that line**, and never a stale byte. -/
theorem readString_of_complete (h : Ready c p) (hno : '\n' ∉ p) {s : Str}
    (hread : read (256 - p.length) fd = (.bytes s, fd')) (hs : s.length ≤ 256 - p.length)
    (hnul : nul ∉ p ++ s) (hline : '\n' ∈ p ++ s) :
    GivesLine (c.readString read fd) (p ++ s) fd' := by
  have hp := h.length_le
  obtain ⟨hhas, hhead, -, stale, hlen, hbuffer⟩ :=
    h.toRead (fun hmem => hnul (List.mem_append_left _ hmem)) hno
  obtain ⟨l, rest, hl, hsplit⟩ := exists_frame hline
  have hcount : p.length + s.length = l.length + 1 + rest.length := by
    have := congrArg List.length hsplit
    rw [List.length_append, List.length_append, List.length_cons] at this
    omega
  rw [List.length_append] at hlen
  have hfill : c.shift.fillString read fd =
      (.ok, ⟨l ++ '\n' :: rest ++ stale.drop s.length, l.length + 1 + rest.length, some 0⟩,
        fd') := by
    rw [CmdCtx.fillString, hhead, hread, hbuffer]
    dsimp only
    rw [List.take_left, ← List.drop_drop, List.drop_left, hsplit, hcount]
  rw [CmdCtx.readString, if_neg (by rw [hhas]; simp), hfill]
  have htotal : (l ++ '\n' :: rest ++ stale.drop s.length).length = 257 := by
    rw [← hsplit, List.length_append, List.length_append, List.length_drop]
    omega
  have hfits : l.length + 1 + rest.length ≤ 256 := by omega
  rw [hsplit] at hnul ⊢
  obtain ⟨hready, hstring⟩ := separate_line hl hnul htotal hfits (some 0)
  exact ⟨l, rest, rfl, hl, rfl, hstring, hready, rfl⟩

end Orbiter.Lirc
