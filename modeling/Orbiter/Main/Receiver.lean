import Orbiter.Main.Threads
import Orbiter.Toolbox.Grammar
import Mathlib.Algebra.Order.BigOperators.Group.List

/-!
# `tcp_func`

The receiver thread: `TCPClient::receive` zeroes a buffer, lets `recv` fill it and
returns what stands before the first terminator, and `tcp_func` pushes that as one
message.  Nothing puts the bytes of two `recv` together, and nothing takes those of
one apart.

* `enqueued_receiving`: **one `HostData` for each `recv`**, whatever it holds.
* `framing`: on a stream of records, each is decoded once and alone exactly when
  every `recv` returns one record.
-/

namespace Orbiter.Main

open Cxx Toolbox Stimuli Globals

/-- `TCPClient::receive`; `recv` fails or yields at most `size` bytes. -/
def receive (size : Nat) (recv : Option Str) : Str :=
  match recv with
  | none => []
  | some bytes =>
    let buffer := bytes ++ List.replicate (size - bytes.length) nul
    cString (buffer.set (size - 1) nul)

/-- One iteration of `tcp_func`; after a reconnect it still pushes its empty string. -/
def tcpFunc (recv : Option Str) : Act := .tcpPush (receive 100 recv)

def receiving (recvs : List (Option Str × Answers)) : List Act :=
  recvs.flatMap fun x => [tcpFunc x.1, .tick x.2]

variable {env : Env}

/-! ### What is received -/

/-- A terminator in the last place of the buffer: a full one loses its last byte. -/
theorem receive_some {size : Nat} {bytes : Str} (h0 : 0 < size) (h : bytes.length ≤ size)
    (hnul : nul ∉ bytes) : receive size (some bytes) = bytes.take (size - 1) := by
  have htake : nul ∉ bytes.take (size - 1) := fun hc => hnul (List.mem_of_mem_take hc)
  have hlen : size - 1 < (bytes ++ List.replicate (size - bytes.length) nul).length := by
    rw [List.length_append, List.length_replicate]
    omega
  simp only [receive]
  rw [List.set_eq_take_append_cons_drop, if_pos hlen, List.take_append, List.take_replicate]
  cases hm : min (size - 1 - bytes.length) (size - bytes.length) with
  | zero => rw [List.replicate_zero, List.append_nil, cString_append_nul htake]
  | succ k =>
    rw [List.replicate_succ, List.append_assoc, List.cons_append, cString_append_nul htake]

/-! ### One tick after each `recv` -/

theorem receiving_concat (recvs : List (Option Str × Answers)) (x : Option Str × Answers) :
    receiving (recvs ++ [x]) = receiving recvs ++ [tcpFunc x.1, .tick x.2] := by
  rw [receiving, List.flatMap_append, ← receiving, List.flatMap_singleton]

theorem pushed : (machine env).Invariant (Threads.Pushed env) where
  init := ⟨rfl, rfl⟩
  step := by
    intro g a _ h
    cases a with
    | tcpPush msg => exact ⟨h.movement, h.stimuli⟩
    | irPush code => exact ⟨h.movement, h.stimuli⟩
    | tick answers =>
      have hdrained : Threads.Pushed env { g with irQueue := [], tcpQueue := [] } :=
        ⟨h.movement, h.stimuli⟩
      exact hdrained.handle answers _ _

/-- **Every non-empty string received is decoded, by the tick behind it.** -/
theorem decoded_receiving (env : Env) (recvs : List (Option Str × Answers)) :
    ((machine env).run (receiving recvs)).tcpQueue = [] ∧
      ((machine env).run (receiving recvs)).decoded =
        Threads.messages (recvs.map fun x => receive 100 x.1) := by
  induction recvs using List.reverseRecOn with
  | nil => exact ⟨rfl, rfl⟩
  | append_singleton recvs x ih =>
    rw [receiving_concat, Machine.run_append, Machine.runFrom_cons, Machine.runFrom_cons,
      Machine.runFrom_nil]
    generalize (machine env).run (receiving recvs) = g at ih
    obtain ⟨hq, hd⟩ := ih
    have hmsg : drain (g.tcpQueue ++ [receive 100 x.1]) [] = receive 100 x.1 :=
      drain_concat _ _ _
    refine ⟨Threads.handle_tcpQueue _ _ _ _, ?_⟩
    refine (Threads.handle_decoded _ _ _ _).trans ?_
    show g.decoded ++ Threads.messages [drain (g.tcpQueue ++ [receive 100 x.1]) []] = _
    rw [hmsg, hd, List.map_append, Threads.messages, Handoff.messages_append]
    rfl

/-- **One `HostData` for each `recv`**, on both queues, and none for an empty one. -/
theorem enqueued_receiving (env : Env) (recvs : List (Option Str × Answers)) :
    let g := (machine env).run (receiving recvs)
    g.movementPushed = (Threads.messages (recvs.map fun x => receive 100 x.1)).map
        (fun msg => decodeHostData env.pow msg 0) ∧
      g.stimuliPushed = g.movementPushed := by
  have h : Threads.Pushed env ((machine env).run (receiving recvs)) := pushed.run _
  refine ⟨?_, h.stimuli.trans h.movement.symm⟩
  rw [h.movement, hostData, (decoded_receiving env recvs).2]

/-! ### Records on the wire -/

/-- The pieces into which `recv` cuts the stream of the records. -/
structure Cuts (records pieces : List Str) : Prop where
  flatten : pieces.flatten = records.flatten
  ne_nil : ∀ piece ∈ pieces, piece ≠ []
  le : ∀ piece ∈ pieces, piece.length ≤ 100

structure WellFormed (record : Str) : Prop where
  length : record.length = 28
  documented : Documented record

theorem WellFormed.nul_notMem {record : Str} (h : WellFormed record) : nul ∉ record := by
  intro hmem
  obtain ⟨i, hi, hget⟩ := List.mem_iff_getElem.mp hmem
  obtain ⟨c, hc, hchar⟩ := h.documented.chars i (by rw [← h.length]; exact hi)
  rw [List.getElem?_eq_getElem hi, hget] at hc
  obtain rfl := Option.some.inj hc
  split at hchar
  · exact absurd hchar (by decide)
  · exact absurd hchar (by decide)

/-- A piece of such a stream is received whole, up to the last byte of the buffer. -/
theorem Cuts.receive {records pieces : List Str} (h : Cuts records pieces)
    (hwf : ∀ record ∈ records, WellFormed record) {piece : Str} (hp : piece ∈ pieces) :
    receive 100 (some piece) = piece.take 99 := by
  apply receive_some (by decide) (h.le piece hp)
  intro hnul
  have hmem : nul ∈ records.flatten := by
    rw [← h.flatten]
    exact List.mem_flatten_of_mem hp hnul
  obtain ⟨record, hr, hc⟩ := List.mem_flatten.mp hmem
  exact (hwf record hr).nul_notMem hc

theorem Cuts.messages {records pieces : List Str} (h : Cuts records pieces)
    (hwf : ∀ record ∈ records, WellFormed record) :
    Threads.messages (pieces.map fun piece => Main.receive 100 (some piece)) =
      pieces.map fun piece => piece.take 99 := by
  rw [List.map_congr_left fun piece hp => h.receive hwf hp, Threads.messages, Handoff.messages,
    List.filter_eq_self]
  intro msg hmsg
  obtain ⟨piece, hp, rfl⟩ := List.mem_map.mp hmsg
  simpa using h.ne_nil piece hp

/-- As many pieces as records, none shorter than a record: they are the records. -/
theorem eq_of_flatten_eq {α : Type*} {n : Nat} {pieces records : List (List α)}
    (h : pieces.flatten = records.flatten) (hlen : pieces.length = records.length)
    (hp : ∀ piece ∈ pieces, n ≤ piece.length) (hr : ∀ record ∈ records, record.length = n) :
    pieces = records := by
  induction pieces generalizing records with
  | nil => exact (List.eq_nil_of_length_eq_zero hlen.symm).symm
  | cons piece pieces ih =>
    cases records with
    | nil => simp at hlen
    | cons record records =>
      have hlen' : pieces.length = records.length := by simpa using hlen
      have hpiece := hp piece (by simp)
      have hrecord := hr record (by simp)
      have hrest : pieces.length * n ≤ pieces.flatten.length := by
        rw [List.length_flatten, ← List.length_map List.length]
        apply List.card_nsmul_le_sum
        intro m hm
        obtain ⟨p, hpm, rfl⟩ := List.mem_map.mp hm
        exact hp p (by simp [hpm])
      have hflat : records.flatten.length = records.length * n := by
        rw [List.length_flatten, List.map_congr_left fun r hrm => hr r (by simp [hrm])]
        simp
      have htotal := congrArg List.length h
      rw [List.flatten_cons, List.flatten_cons, List.length_append, List.length_append, hflat,
        hlen'.symm] at htotal
      obtain ⟨rfl, hrest'⟩ := List.append_inj (by simpa using h) (by omega)
      rw [ih hrest' hlen' (fun p hpm => hp p (by simp [hpm])) fun r hrm => hr r (by simp [hrm])]

/-! ### The records decoded -/

def decodeRecords (env : Env) (records : List Str) : List HostData :=
  records.map fun record => decodeHostData env.pow record 0

def receivingPieces (recvs : List (Str × Answers)) : List Act :=
  receiving (recvs.map fun x => (some x.1, x.2))

/-- **One `HostData` for each piece**, decoded from it alone. -/
theorem enqueued_pieces (env : Env) {records : List Str}
    (hwf : ∀ record ∈ records, WellFormed record) {recvs : List (Str × Answers)}
    (h : Cuts records (recvs.map Prod.fst)) :
    ((machine env).run (receivingPieces recvs)).movementPushed =
        decodeRecords env (recvs.map Prod.fst) ∧
      ((machine env).run (receivingPieces recvs)).stimuliPushed =
        decodeRecords env (recvs.map Prod.fst) := by
  obtain ⟨hmov, hstim⟩ := enqueued_receiving env (recvs.map fun x => (some x.1, x.2))
  have hmsg : Threads.messages ((recvs.map fun x => ((some x.1 : Option Str), x.2)).map
      fun x => receive 100 x.1) = (recvs.map Prod.fst).map fun piece => piece.take 99 := by
    rw [← h.messages hwf, List.map_map, List.map_map]
    rfl
  have hdecode : (Threads.messages ((recvs.map fun x => ((some x.1 : Option Str), x.2)).map
      fun x => receive 100 x.1)).map (fun msg => decodeHostData env.pow msg 0) =
      decodeRecords env (recvs.map Prod.fst) := by
    rw [hmsg, List.map_map, decodeRecords]
    exact List.map_congr_left fun piece _ => decodeHostData_take (by decide) piece
  exact ⟨hmov.trans hdecode, hstim.trans (hmov.trans hdecode)⟩

/-- The pieces decode as the records exactly when they are the records. -/
theorem decodeRecords_eq_iff (env : Env) {records pieces : List Str}
    (hwf : ∀ record ∈ records, WellFormed record) (ha : ∀ record ∈ records, Accepted record)
    (h : Cuts records pieces) :
    decodeRecords env pieces = decodeRecords env records ↔ pieces = records := by
  refine ⟨?_, congrArg _⟩
  intro he
  have hlen : pieces.length = records.length := by
    simpa [decodeRecords] using congrArg List.length he
  apply eq_of_flatten_eq h.flatten hlen
  · intro piece hp
    -- A piece that decodes as a record is accepted, and so as long as a record.
    have hmem : decodeHostData env.pow piece 0 ∈ decodeRecords env records := by
      rw [← he]
      exact List.mem_map_of_mem hp
    obtain ⟨record, hr, hrec⟩ := List.mem_map.mp hmem
    have hne : decodeHostData env.pow record 0 ≠ HostData.zero :=
      decodeHostData_ne_zero_iff.mpr (ha record hr)
    rw [hrec] at hne
    exact (decodeHostData_ne_zero_iff.mp hne).le_length
  · intro record hr
    exact (hwf record hr).length

/-- **What the receiver makes of a stream of records**, however it is cut: one
`HostData` for each piece, and for records the decoder accepts these are the records'
own exactly when every piece is one record. -/
theorem framing (env : Env) (records : List Str) (hwf : ∀ record ∈ records, WellFormed record)
    (recvs : List (Str × Answers)) (h : Cuts records (recvs.map Prod.fst)) :
    let g := (machine env).run (receivingPieces recvs)
    g.movementPushed = decodeRecords env (recvs.map Prod.fst) ∧
      g.stimuliPushed = decodeRecords env (recvs.map Prod.fst) ∧
      ((∀ record ∈ records, Accepted record) →
        (g.movementPushed = decodeRecords env records ↔ recvs.map Prod.fst = records)) := by
  obtain ⟨hmov, hstim⟩ := enqueued_pieces env hwf h
  refine ⟨hmov, hstim, ?_⟩
  intro ha
  simp only [hmov]
  exact decodeRecords_eq_iff env hwf ha h

/-- One record that arrives in two pieces is enqueued twice, and neither time itself. -/
theorem record_cut_in_two :
    let record := "001010.00090.000010010009010".toList
    let recvs := [(record.take 10, arrived), (record.drop 10, arrived)]
    WellFormed record ∧ Accepted record ∧ Cuts [record] (recvs.map Prod.fst) ∧
      ((machine oneSecond).run (receivingPieces recvs)).movementPushed ≠
        decodeRecords oneSecond [record] :=
  ⟨⟨by decide, by decide⟩, by decide, ⟨by decide, by decide, by decide⟩, by decide +kernel⟩

/-- Two records in two pieces. -/
theorem framing_two :
    let records := ["001010.00090.000010010009010".toList, "002010.00045.000020005009010".toList]
    ((machine oneSecond).run (receivingPieces (records.map fun record =>
      (record, arrived)))).movementPushed = decodeRecords oneSecond records :=
  ((framing oneSecond
    ["001010.00090.000010010009010".toList, "002010.00045.000020005009010".toList]
    (by simp only [List.forall_mem_cons, List.not_mem_nil, false_implies, implies_true, and_true]
        exact ⟨⟨by decide, by decide⟩, ⟨by decide, by decide⟩⟩)
    (["001010.00090.000010010009010".toList, "002010.00045.000020005009010".toList].map
      fun record => (record, arrived))
    ⟨by decide, by decide, by decide⟩).2.2 (by decide)).mpr (by decide)

end Orbiter.Main
