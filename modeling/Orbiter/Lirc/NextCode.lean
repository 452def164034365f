import Orbiter.Machine.Frames
import Orbiter.Main.InfraredReader

/-!
# `lirc_nextcode`

The lirc client takes the lines of its daemon out of a stream.  A call of
`lirc_nextcode` looks for a line end in its buffer, reads once when there is none, and
gives the first line away; the buffer grows when it is full.  It is a C string, so a
zero byte hides what is behind it, and it is static: `lirc_deinit` frees the bytes but
does not forget how many there were.

* `called_lircNextcode`: **what one call may do** to the bytes held and those to come.
* `lircNextcode_isSome_iff`: a call gives a line exactly when one read completes it.
* `deaf_lircNextcode`: a zero byte in the first place hides every line behind it.
-/

namespace Orbiter.Lirc

open Cxx Main Frames

def packetSize : Nat := 256

/-- What `read` gives: bytes (none at the end of the stream), `EAGAIN`, or another
error. -/
inductive ReadResult
  | bytes (s : Str)
  | again
  | failed
  deriving DecidableEq

/-- The statics: the bytes of `lirc_buffer` in use, `none` when it is null, and how many
bytes are in use and allocated. -/
structure Buffer where
  lircBuffer : Option Str
  endLen : Nat
  packetSize : Nat
  deriving DecidableEq

/-- The statics as they are initialized. -/
def Buffer.fresh : Buffer := ⟨none, 0, Lirc.packetSize⟩

/-- `lirc_deinit`: the other two statics belong to `lirc_nextcode` and stay. -/
def lircDeinit (b : Buffer) : Buffer := { b with lircBuffer := none }

/-- The bytes in use behind the `malloc`, which writes only the first one. -/
def Buffer.held (heap : Nat → Char) (b : Buffer) : Str :=
  b.lircBuffer.getD ((List.range b.endLen).map fun i => if i = 0 then nul else heap i)

def Buffer.grow (b : Buffer) : Nat :=
  if b.packetSize ≤ b.endLen then b.packetSize + Lirc.packetSize else b.packetSize

/-- The statics when a read brings nothing. -/
def Buffer.grown (heap : Nat → Char) (b : Buffer) : Buffer :=
  ⟨some (b.held heap), b.endLen, b.grow⟩

def lircNextcode {σ : Type*} (heap : Nat → Char) (read : Nat → σ → ReadResult × σ)
    (b : Buffer) (fd : σ) : NextCode × Buffer × σ :=
  match takeFrame '\n' (cString (b.held heap)) with
  | some (code, behind) => (.line code, ⟨some behind, behind.length, b.packetSize⟩, fd)
  | none =>
    match read (b.grow - b.endLen) fd with
    | (.again, fd) => (.incomplete, b.grown heap, fd)
    | (.failed, fd) => (.error, b.grown heap, fd)
    | (.bytes s, fd) =>
      if s.length = 0 then (.error, b.grown heap, fd)
      else
        match takeFrame '\n' (cString (b.held heap ++ s)) with
        | some (code, behind) => (.line code, ⟨some behind, behind.length, b.grow⟩, fd)
        | none => (.incomplete, ⟨some (b.held heap ++ s), b.endLen + s.length, b.grow⟩, fd)

variable {heap : Nat → Char} {σ : Type*} {read : Nat → σ → ReadResult × σ} {b : Buffer} {fd : σ}

/-! ### The buffer -/

@[simp] theorem held_some (s : Str) (n m : Nat) : Buffer.held heap ⟨some s, n, m⟩ = s := rfl

theorem grow_room (hb : b.endLen ≤ b.packetSize) : b.endLen < b.grow := by
  rw [Buffer.grow, Lirc.packetSize]
  split_ifs with h
  · omega
  · omega

/-- Without zero bytes the string is the bytes in use. -/
theorem cString_of_notMem {s : Str} (h : nul ∉ s) : cString s = s := by
  rw [cString, List.takeWhile_eq_self_iff]
  intro c hc
  rw [decide_eq_true_iff]
  rintro rfl
  exact h hc

/-- Behind a zero byte in the first place nothing is found. -/
theorem takeFrame_of_nul (s : Str) : takeFrame '\n' (cString (nul :: s)) = none := by
  rw [cString, List.takeWhile_cons_of_neg (by simp)]
  rfl

/-! ### One call -/

/-- A read takes from the front of the stream what it gives. -/
def Reads (stream : σ → Str) (read : Nat → σ → ReadResult × σ) : Prop :=
  ∀ room fd,
    match read room fd with
    | (.bytes s, fd') => s.length ≤ room ∧ stream fd = s ++ stream fd'
    | (_, fd') => stream fd = stream fd'

/-- What a call may do, the bytes held and those to come taken together. -/
structure Called (heap : Nat → Char) (stream : σ → Str) (b : Buffer) (fd : σ)
    (x : NextCode × Buffer × σ) : Prop where
  conserved : b.held heap ++ stream fd = x.1.code.getD [] ++ (x.2.1.held heap ++ stream x.2.2)
  isFrame : ∀ code ∈ x.1.code, IsFrame '\n' code
  noLine : x.1.code = none → '\n' ∉ x.2.1.held heap
  length : (x.2.1.held heap).length = x.2.1.endLen
  fits : x.2.1.endLen ≤ x.2.1.packetSize
  grows : x.2.1.packetSize = b.packetSize ∨
    x.2.1.packetSize = b.packetSize + packetSize ∧ b.packetSize ≤ b.endLen ∧
      '\n' ∉ b.held heap

theorem grow_cases (h : '\n' ∉ b.held heap) : b.grow = b.packetSize ∨
    b.grow = b.packetSize + packetSize ∧ b.packetSize ≤ b.endLen ∧ '\n' ∉ b.held heap := by
  rw [Buffer.grow]
  split_ifs with hfull
  · exact Or.inr ⟨rfl, hfull, h⟩
  · exact Or.inl rfl

theorem called_of_line {stream : σ → Str} {code behind : Str} {n : Nat} {fd' : σ}
    (hsplit : b.held heap ++ stream fd = code ++ (behind ++ stream fd'))
    (hcode : IsFrame '\n' code) (hfits : behind.length ≤ n)
    (hgrows : n = b.packetSize ∨
      n = b.packetSize + packetSize ∧ b.packetSize ≤ b.endLen ∧ '\n' ∉ b.held heap) :
    Called heap stream b fd (.line code, ⟨some behind, behind.length, n⟩, fd') where
  conserved := hsplit
  isFrame := by
    rintro _ ⟨⟩
    exact hcode
  noLine := by
    intro h
    exact absurd h (by simp [NextCode.code])
  length := rfl
  fits := hfits
  grows := hgrows

theorem called_of_nothing {stream : σ → Str} {r : NextCode} {fd' : σ} (hr : r.code = none)
    (hlength : (b.held heap).length = b.endLen) (hfits : b.endLen ≤ b.packetSize)
    (hline : '\n' ∉ b.held heap) (hstream : stream fd = stream fd') :
    Called heap stream b fd (r, b.grown heap, fd') where
  conserved := by
    show _ = r.code.getD [] ++ (b.held heap ++ stream fd')
    rw [hr, hstream]
    rfl
  isFrame := by
    intro code hcode
    change code ∈ r.code at hcode
    rw [hr] at hcode
    exact absurd hcode (by simp)
  noLine := fun _ => hline
  length := hlength
  fits := (grow_room hfits).le
  grows := grow_cases hline

/-- **One call**: it loses nothing, gives a whole line or leaves none behind, and stays
in the buffer. -/
theorem called_lircNextcode {stream : σ → Str} (hread : Reads stream read)
    (hnul : nul ∉ b.held heap ++ stream fd) (hlength : (b.held heap).length = b.endLen)
    (hfits : b.endLen ≤ b.packetSize) :
    Called heap stream b fd (lircNextcode heap read b fd) := by
  have hheld : nul ∉ b.held heap := fun h => hnul (List.mem_append_left _ h)
  have hroom := grow_room hfits
  rw [lircNextcode, cString_of_notMem hheld]
  cases hline : takeFrame '\n' (b.held heap) with
  | some x =>
    obtain ⟨code, behind⟩ := x
    obtain ⟨hcode, hsplit⟩ := takeFrame_eq_some_iff.mp hline
    refine called_of_line (by rw [hsplit, List.append_assoc]) hcode ?_ (Or.inl rfl)
    rw [hsplit, List.length_append] at hlength
    omega
  | none =>
    rw [takeFrame_eq_none_iff] at hline
    have hr := hread (b.grow - b.endLen) fd
    cases hres : read (b.grow - b.endLen) fd with
    | mk res fd' =>
      rw [hres] at hr
      cases res with
      | again => exact called_of_nothing rfl hlength hfits hline hr
      | failed => exact called_of_nothing rfl hlength hfits hline hr
      | bytes s =>
        obtain ⟨hlen, hstream⟩ := hr
        dsimp only
        by_cases hs : s.length = 0
        · rw [if_pos hs]
          rw [List.length_eq_zero_iff.mp hs] at hstream
          exact called_of_nothing rfl hlength hfits hline hstream
        · rw [if_neg hs]
          have hboth : nul ∉ b.held heap ++ s := by
            intro h
            refine hnul ?_
            rw [hstream, ← List.append_assoc]
            exact List.mem_append_left _ h
          rw [cString_of_notMem hboth]
          cases hline' : takeFrame '\n' (b.held heap ++ s) with
          | some x =>
            obtain ⟨code, behind⟩ := x
            obtain ⟨hcode, hsplit⟩ := takeFrame_eq_some_iff.mp hline'
            refine called_of_line ?_ hcode ?_ (grow_cases hline)
            · rw [hstream, ← List.append_assoc, hsplit, List.append_assoc]
            · have := congrArg List.length hsplit
              rw [List.length_append, List.length_append] at this
              omega
          | none =>
            rw [takeFrame_eq_none_iff] at hline'
            refine ⟨?_, by rintro _ ⟨⟩, fun _ => hline', ?_, ?_, grow_cases hline⟩
            · rw [hstream, ← List.append_assoc]
              rfl
            · rw [held_some, List.length_append, hlength]
            · show b.endLen + s.length ≤ b.grow
              omega

/-- A call makes its read, or has a line without one. -/
theorem lircNextcode_reads :
    (lircNextcode heap read b fd).2.2 = (read (b.grow - b.endLen) fd).2 ∨
      (lircNextcode heap read b fd).1.code.isSome = true ∧
        (lircNextcode heap read b fd).2.2 = fd := by
  rw [lircNextcode]
  cases hline : takeFrame '\n' (cString (b.held heap)) with
  | some x => exact Or.inr ⟨rfl, rfl⟩
  | none =>
    left
    dsimp only
    cases hres : read (b.grow - b.endLen) fd with
    | mk res fd' =>
      cases res with
      | again => rfl
      | failed => rfl
      | bytes s =>
        dsimp only
        split_ifs with hs
        · rfl
        · cases hline' : takeFrame '\n' (cString (b.held heap ++ s)) with
          | some x => rfl
          | none => rfl

def ReadResult.given : ReadResult → Str
  | .bytes s => s
  | .again => []
  | .failed => []

/-- **A call gives a line exactly when one read completes it.** -/
theorem lircNextcode_isSome_iff
    (hnul : nul ∉ b.held heap ++ (read (b.grow - b.endLen) fd).1.given) :
    (lircNextcode heap read b fd).1.code.isSome = true ↔
      '\n' ∈ b.held heap ++ (read (b.grow - b.endLen) fd).1.given := by
  rw [lircNextcode, cString_of_notMem fun h => hnul (List.mem_append_left _ h)]
  cases hline : takeFrame '\n' (b.held heap) with
  | some x => exact iff_of_true rfl (List.mem_append_left _ (mem_of_takeFrame hline))
  | none =>
    rw [takeFrame_eq_none_iff] at hline
    cases hres : read (b.grow - b.endLen) fd with
    | mk res fd' =>
      rw [hres] at hnul
      cases res with
      | again => exact iff_of_false (by simp [NextCode.code]) (by simpa [ReadResult.given])
      | failed => exact iff_of_false (by simp [NextCode.code]) (by simpa [ReadResult.given])
      | bytes s =>
        change nul ∉ b.held heap ++ s at hnul
        show _ ↔ '\n' ∈ b.held heap ++ s
        dsimp only
        by_cases hs : s.length = 0
        · rw [if_pos hs, List.length_eq_zero_iff.mp hs, List.append_nil]
          exact iff_of_false (by simp [NextCode.code]) hline
        · rw [if_neg hs, cString_of_notMem hnul]
          cases hline' : takeFrame '\n' (b.held heap ++ s) with
          | some x => exact iff_of_true rfl (mem_of_takeFrame hline')
          | none =>
            exact iff_of_false (by simp [NextCode.code]) (takeFrame_eq_none_iff.mp hline')

/-! ### A buffer that begins with a zero byte -/

theorem held_lircDeinit {n : Nat} (h : b.endLen = n + 1) :
    ∃ t, (lircDeinit b).held heap = nul :: t := by
  refine ⟨((List.range n).map Nat.succ).map fun i => if i = 0 then nul else heap i, ?_⟩
  show (List.range b.endLen).map _ = _
  rw [h, List.range_succ_eq_map, List.map_cons, if_pos rfl]

/-- **Behind a zero byte in the first place no line is found any more.** -/
theorem deaf_lircNextcode (h : ∃ t, b.held heap = nul :: t) :
    (lircNextcode heap read b fd).1.code = none ∧
      ∃ t, (lircNextcode heap read b fd).2.1.held heap = nul :: t := by
  obtain ⟨t, ht⟩ := h
  rw [lircNextcode, ht, takeFrame_of_nul]
  dsimp only
  cases hres : read (b.grow - b.endLen) fd with
  | mk res fd' =>
    cases res with
    | again => exact ⟨rfl, t, ht⟩
    | failed => exact ⟨rfl, t, ht⟩
    | bytes s =>
      dsimp only
      rw [List.cons_append, takeFrame_of_nul]
      split_ifs
      · exact ⟨rfl, t, ht⟩
      · exact ⟨rfl, t ++ s, rfl⟩

end Orbiter.Lirc
