import Orbiter.Lirc.Served
import Orbiter.Machine.Ranking

/-!
# The answers behind the repeats

A client that waits for its repeats is answered when the timer has lowered the countdown to
zero, as long as nobody stops the repetition.

* `answering`: the repeats left, as a `Machine.Ranking`.
* `repeats_end`: **every client gets its answer.**
-/

namespace Orbiter.Lirc

open Cxx Frames

namespace Daemon

variable {cfg : Config} {s t : Daemon} {r : Request} {c : Client} {fd : Nat}

def waiting (s : Daemon) : Bool := s.repeatFd.any fun fd => decide (s.Connected fd)

/-- The command of a connected client waits for its repeats. -/
def waitsFor (s : Daemon) (r : Request) : Bool :=
  s.waiting && decide (s.repeatMessage = some r)

/-- The repeats the command waits for, and the one that ends them. -/
def repeatsLeft (r : Request) (s : Daemon) : Nat :=
  if s.waitsFor r then s.countdown.toNat + 1 else 0

def counts (s : Daemon) : Act → Bool
  | .alarm alarm =>
    decide s.Idle && s.repeating.all fun x => !x.2.hasNext || alarm.last
  | _ => false

def HearsStop (cfg : Config) (s : Daemon) : Act → Prop
  | .next _ => ∃ x ∈ s.command, IsStop cfg x.2
  | _ => False

def Undisturbed (cfg : Config) (s : Daemon) (a : Act) : Prop :=
  ¬ s.Breaks cfg a ∧ ¬ s.HearsStop cfg a

/-- The command was given, and every client is served. -/
structure Given (r : Request) (s : Daemon) : Prop where
  sane : s.Sane
  served : s.Served
  number : r.number < s.requests

theorem waitsFor_iff : s.waitsFor r = true ↔
    ∃ c ∈ s.clients, s.repeatFd = some c.fd ∧ s.repeatMessage = some r := by
  rw [waitsFor, waiting, Bool.and_eq_true, decide_eq_true_iff, Option.any_eq_true_iff_get]
  constructor
  · rintro ⟨⟨hfd, hc⟩, hr⟩
    obtain ⟨c, hc, hcfd⟩ := of_decide_eq_true hc
    exact ⟨c, hc, by rw [hcfd, Option.some_get], hr⟩
  · rintro ⟨c, hc, hfd, hr⟩
    have hsome : s.repeatFd.isSome := by rw [hfd]; rfl
    refine ⟨⟨hsome, decide_eq_true ⟨c, hc, ?_⟩⟩, hr⟩
    rw [← Option.some_inj, Option.some_get, hfd]

/-! ### The clients of a step are those before -/

theorem connected_of_mem (hc : c ∈ s.clients) : s.Connected c.fd := ⟨c, hc, rfl⟩

theorem connected_onClient {f : Client → Client} (hf : ∀ c, (f c).fd = c.fd)
    (hc : c ∈ (s.onClient fd f).clients) : s.Connected c.fd := by
  obtain ⟨c', hc', rfl⟩ := List.mem_map.mp hc
  refine ⟨c', hc', ?_⟩
  split_ifs
  · exact (hf c').symm
  · rfl

/-- A step that leaves the repetition alone, and connects nobody whose descriptor is waited
for. -/
structure Leaves (s t : Daemon) : Prop where
  clients : ∀ c ∈ t.clients, s.repeatFd = some c.fd → s.Connected c.fd
  repeatFd : t.repeatFd = s.repeatFd
  repeatMessage : t.repeatMessage = s.repeatMessage
  countdown : t.countdown = s.countdown
  requests : t.requests = s.requests

theorem leaves_self (s : Daemon) : Leaves s s :=
  ⟨fun _ hc _ => connected_of_mem hc, rfl, rfl, rfl, rfl⟩

theorem leaves_dismiss (s : Daemon) : Leaves s s.dismiss := by
  obtain ⟨stale, heq⟩ := dismiss_eq s
  refine ⟨fun c hc _ => connected_of_mem (mem_of_mem_dismiss hc), ?_, ?_, ?_, ?_⟩ <;> rw [heq]

theorem Leaves.reading (h : Leaves s t) (reading : Option (Nat × Str)) :
    Leaves s { t with reading := reading } :=
  ⟨h.clients, h.repeatFd, h.repeatMessage, h.countdown, h.requests⟩

theorem leaves_readOn (s : Daemon) (fd : Nat) (b : Str) : Leaves s (s.readOn fd b) := by
  rw [readOn]
  split_ifs
  · exact (leaves_self s).reading _
  · exact (leaves_dismiss s).reading none

theorem leaves_accept (hb : ¬ s.Breaks cfg (.accept fd)) : Leaves s (s.accept fd) := by
  rw [accept]
  by_cases hc : s.Idle ∧ ¬ s.Connected fd ∧ s.clients.length < maxClients
  · rw [if_pos hc]
    refine ⟨?_, rfl, rfl, rfl, rfl⟩
    intro c hmem hfd
    rcases List.mem_append.mp hmem with hmem | hmem
    · exact connected_of_mem hmem
    · rw [List.mem_singleton.mp hmem] at hfd
      exact absurd ⟨hc, hfd⟩ hb
  · rw [if_neg hc]
    exact leaves_self s

theorem leaves_broadcast (s : Daemon) (noise : Noise) (lost : List Nat) :
    Leaves s (s.broadcast noise lost) := by
  obtain ⟨stale, heq⟩ := broadcast_eq s noise lost
  rw [heq]
  refine ⟨?_, rfl, rfl, rfl, rfl⟩
  intro c' hc' _
  obtain ⟨c, hc, rfl⟩ := List.mem_map.mp hc'
  exact ⟨c, (List.mem_filter.mp hc).1, rfl⟩

theorem leaves_poll (s : Daemon) (ready : List Nat) : Leaves s (s.poll ready) := by
  rw [poll]
  split_ifs
  · exact ⟨fun _ hc _ => connected_of_mem hc, rfl, rfl, rfl, rfl⟩
  · exact leaves_self s

theorem leaves_scan (s : Daemon) (bytes : ReadResult) : Leaves s (s.scan bytes) := by
  have hlooked : ∀ pollFds place, Leaves s { s with pollFds := pollFds, place := place } :=
    fun _ _ => ⟨fun _ hc _ => connected_of_mem hc, rfl, rfl, rfl, rfl⟩
  have hscan := scanned s bytes
  generalize s.scan bytes = t at hscan
  cases hscan with
  | same => exact leaves_self s
  | ended => exact hlooked [] s.place
  | reads fd i pollFds c =>
    cases bytes with
    | bytes b =>
      obtain ⟨hclients, hfd, hmessage, hcountdown, hrequests⟩ :=
        leaves_readOn { s with pollFds := pollFds, place := i } c.fd (b.take packetSize)
      exact ⟨hclients, hfd, hmessage, hcountdown, hrequests⟩
    | again => exact hlooked pollFds i
    | failed => exact hlooked pollFds i

theorem leaves_more (s : Daemon) (bytes : ReadResult) : Leaves s (s.more bytes) := by
  rw [more]
  cases hreading : s.reading with
  | none => exact leaves_self s
  | some x =>
    obtain ⟨fd, b⟩ := x
    dsimp only
    split_ifs
    · exact leaves_self s
    · cases bytes with
      | bytes b' =>
        dsimp only
        split_ifs
        · exact (leaves_dismiss s).reading none
        · exact leaves_readOn s fd _
      | again => exact (leaves_self s).reading none
      | failed => exact (leaves_self s).reading none

/-! ### The repeats left -/

theorem repeatsLeft_le {k : Nat} (h : t.waitsFor r = true →
    s.waitsFor r = true ∧ t.countdown.toNat + k ≤ s.countdown.toNat) :
    t.repeatsLeft r ≤ s.repeatsLeft r - k := by
  rw [repeatsLeft, repeatsLeft]
  cases ht : t.waitsFor r with
  | false => exact Nat.zero_le _
  | true =>
    obtain ⟨hs, hle⟩ := h ht
    rw [hs, if_pos rfl, if_pos rfl]
    omega

/-- Who waits behind a step waited before. -/
theorem waitsFor_of (hclients : ∀ c ∈ t.clients, s.repeatFd = some c.fd → s.Connected c.fd)
    (hfd : t.repeatFd = s.repeatFd) (hmessage : t.repeatMessage = s.repeatMessage)
    (h : t.waitsFor r = true) : s.waitsFor r = true := by
  obtain ⟨c, hc, hwaits, hr⟩ := waitsFor_iff.mp h
  obtain ⟨c', hc', hcfd⟩ := hclients c hc (hfd.symm.trans hwaits)
  exact waitsFor_iff.mpr ⟨c', hc', by rw [hcfd, ← hfd, hwaits], hmessage.symm.trans hr⟩

theorem repeatsLeft_mono (hclients : ∀ c ∈ t.clients, s.repeatFd = some c.fd → s.Connected c.fd)
    (hfd : t.repeatFd = s.repeatFd) (hmessage : t.repeatMessage = s.repeatMessage)
    (hcountdown : s.waitsFor r = true → t.countdown.toNat ≤ s.countdown.toNat) :
    t.repeatsLeft r ≤ s.repeatsLeft r := by
  refine repeatsLeft_le (k := 0) fun ht => ?_
  have hwaits := waitsFor_of hclients hfd hmessage ht
  exact ⟨hwaits, hcountdown hwaits⟩

theorem Leaves.repeatsLeft_le (h : Leaves s t) : t.repeatsLeft r ≤ s.repeatsLeft r :=
  repeatsLeft_mono h.clients h.repeatFd h.repeatMessage fun _ => by rw [h.countdown]

theorem Served.repeating (hs : s.Served) (h : s.waitsFor r = true) : s.repeating ≠ none := by
  obtain ⟨c, hc, hwaits, -⟩ := waitsFor_iff.mp h
  exact (hs c hc).repeats hwaits

theorem connected_asks {line : Str} (hc : c ∈ (s.asks fd line).clients) : s.Connected c.fd :=
  connected_onClient (f := (Client.ask · ⟨s.requests, line⟩)) (fun _ => rfl) hc

/-- The countdown is as before, unless nobody waits. -/
theorem Given.countdown_le (h : Given r s) {hw : Hardware} {b line rest : Str}
    (hstop : ¬ s.HearsStop cfg (.next hw)) (hreading : s.reading = some (fd, b))
    (hline : firstLine b = some (line, rest)) {countdown : Int}
    (hcountdown : countdown = s.countdown ∨ s.repeating = none ∨ IsStop cfg line)
    (hwaits : s.waitsFor r = true) : countdown.toNat ≤ s.countdown.toNat := by
  rcases hcountdown with heq | hidle | hstop'
  · rw [heq]
  · exact absurd hidle (h.served.repeating hwaits)
  · exact absurd ⟨(fd, line), command_eq hreading hline, hstop'⟩ hstop

theorem Given.repeatsLeft_next (h : Given r s) {hw : Hardware}
    (hstop : ¬ s.HearsStop cfg (.next hw)) : (s.next cfg hw).repeatsLeft r ≤ s.repeatsLeft r := by
  have htakes := takes cfg s hw
  generalize s.next cfg hw = t at htakes
  cases htakes with
  | same => exact Nat.le_refl _
  | answers fd b line rest reply repeating countdown hreading hline _ _ _ _ hcountdown =>
    refine repeatsLeft_mono (fun c hc _ => ?_) rfl rfl
      (h.countdown_le hstop hreading hline hcountdown)
    obtain ⟨c', hc', hcfd⟩ := connected_onClient
      (f := (Client.write · (.answer ⟨s.requests, line⟩ reply))) (fun _ => rfl) hc
    rw [← hcfd]
    exact connected_asks hc'
  | fails fd b line rest repeating countdown hreading hline _ _ _ _ hcountdown =>
    have hdismiss := leaves_dismiss { s.asks fd line with
      repeating := repeating, countdown := countdown }
    refine repeatsLeft_mono (fun c hc hwaits => ?_) hdismiss.repeatFd hdismiss.repeatMessage
      fun hwaits => ?_
    · obtain ⟨c', hc', hcfd⟩ := hdismiss.clients c hc hwaits
      rw [← hcfd]
      exact connected_asks hc'
    · exact (congrArg Int.toNat hdismiss.countdown).le.trans
        (h.countdown_le hstop hreading hline hcountdown hwaits)
  | waits fd b line rest repeating countdown =>
    -- another command waits now
    refine Daemon.repeatsLeft_le (k := 0) fun ht => ?_
    obtain ⟨-, -, -, hr⟩ := waitsFor_iff.mp ht
    have hnumber := h.number
    rw [← Option.some.inj hr] at hnumber
    exact absurd hnumber (Nat.lt_irrefl _)

theorem Given.repeatsLeft_alarm (h : Given r s) (alarm : Alarm) :
    (s.step cfg (.alarm alarm)).repeatsLeft r ≤
      s.repeatsLeft r - if s.counts (.alarm alarm) then 1 else 0 := by
  rw [step]
  by_cases hidle : s.Idle
  · rw [if_pos hidle]
    cases hends : s.ends alarm with
    | true =>
      refine Daemon.repeatsLeft_le fun ht => ?_
      obtain ⟨c, -, hwaits, -⟩ := waitsFor_iff.mp ht
      rw [(dosigalrm_of_ends hends).repeatFd] at hwaits
      exact absurd hwaits (by simp)
    | false =>
      obtain ⟨countdown, hgo, hlowered⟩ := dosigalrm_of_not_ends hends
      rw [hgo]
      refine Daemon.repeatsLeft_le fun ht => ?_
      have hwaits := waitsFor_of (s := s) (fun c hc _ => connected_of_mem hc) rfl rfl ht
      refine ⟨hwaits, ?_⟩
      obtain ⟨⟨remote, code⟩, hx⟩ := Option.ne_none_iff_exists'.mp (h.served.repeating hwaits)
      obtain ⟨heq, hpos⟩ := hlowered remote code hx
      rw [lowered] at heq
      rw [counts, decide_eq_true hidle, hx]
      show countdown.toNat + (if (!code.hasNext || alarm.last) = true then 1 else 0) ≤ _
      have hsame : (!code.hasNext || alarm.last) = true ↔
          code.hasNext = false ∨ alarm.last = true := by
        rw [Bool.or_eq_true, Bool.not_eq_true']
      rw [if_congr hsame rfl rfl]
      split_ifs at heq ⊢ <;> omega
  · rw [if_neg hidle]
    have hcounts : s.counts (.alarm alarm) = false := by
      rw [counts, decide_eq_false hidle]
      rfl
    rw [hcounts]
    exact Nat.le_refl _

/-! ### The answer -/

theorem requests_next (s : Daemon) (hw : Hardware) : s.requests ≤ (s.next cfg hw).requests := by
  have htakes := takes cfg s hw
  generalize s.next cfg hw = t at htakes
  cases htakes with
  | same => exact Nat.le_refl _
  | answers => exact Nat.le_succ _
  | fails fd b line rest repeating countdown =>
    have hdismiss := leaves_dismiss { s.asks fd line with
      repeating := repeating, countdown := countdown }
    exact (Nat.le_succ _).trans hdismiss.requests.ge
  | waits => exact Nat.le_succ _

theorem requests_alarm (s : Daemon) (alarm : Alarm) :
    (s.dosigalrm alarm).requests = s.requests := by
  cases hends : s.ends alarm with
  | true => exact (dosigalrm_of_ends hends).requests
  | false =>
    obtain ⟨countdown, hgo, -⟩ := dosigalrm_of_not_ends hends
    rw [hgo]

theorem requests_step {a : Act} (hb : ¬ s.Breaks cfg a) :
    s.requests ≤ (s.step cfg a).requests := by
  cases a with
  | accept fd => exact (leaves_accept hb).requests.ge
  | broadcast noise lost => exact (leaves_broadcast s noise lost).requests.ge
  | poll ready => exact (leaves_poll s ready).requests.ge
  | scan bytes => exact (leaves_scan s bytes).requests.ge
  | next hw => exact requests_next s hw
  | more bytes => exact (leaves_more s bytes).requests.ge
  | alarm alarm =>
    rw [step]
    split_ifs
    · exact (requests_alarm s alarm).ge
    · exact Nat.le_refl _

theorem Given.step (h : Given r s) {a : Act} (hb : ¬ s.Breaks cfg a) : Given r (s.step cfg a) :=
  ⟨h.sane.step a, (served_step h.served h.sane a).mpr hb, h.number.trans_le (requests_step hb)⟩

/-- A step takes away one of the repeats left, if the timer counts. -/
theorem Given.repeatsLeft_step (h : Given r s) {a : Act} (hq : s.Undisturbed cfg a) :
    (s.step cfg a).repeatsLeft r ≤ s.repeatsLeft r - if s.counts a then 1 else 0 := by
  cases a with
  | accept fd => exact (leaves_accept hq.1).repeatsLeft_le
  | broadcast noise lost => exact (leaves_broadcast s noise lost).repeatsLeft_le
  | poll ready => exact (leaves_poll s ready).repeatsLeft_le
  | scan bytes => exact (leaves_scan s bytes).repeatsLeft_le
  | next hw => exact h.repeatsLeft_next hq.2
  | more bytes => exact (leaves_more s bytes).repeatsLeft_le
  | alarm alarm => exact h.repeatsLeft_alarm alarm

def answering (cfg : Config) (r : Request) :
    (lircd cfg).Ranking (Given r) (Undisturbed cfg) counts where
  rank := repeatsLeft r
  keep _ _ h hq := h.step hq.1
  le _ _ h hq := (h.repeatsLeft_step hq).trans (Nat.sub_le _ _)
  lt := by
    intro s a h hq hp
    have hle := h.repeatsLeft_step hq
    rw [hp] at hle
    exact hle

/-- **Every client gets its answer**: as many alarms as there are repeats left and one more
answer all commands given so far, whatever is asked, broadcast or connected in between, as
long as nobody sends a `SEND_STOP`. -/
theorem repeats_end (cfg : Config) (acts quiet : List Act)
    (hb : ∀ x ∈ (lircd cfg).steps (acts ++ quiet), ¬ x.1.Breaks cfg x.2)
    (hstop : (lircd cfg).AlwaysFrom (fun s a => ¬ s.HearsStop cfg a) ((lircd cfg).run acts) quiet)
    (hn : ((lircd cfg).run acts).countdown.toNat + 1 ≤
      (lircd cfg).countFrom counts ((lircd cfg).run acts) quiet) :
    ∀ c ∈ ((lircd cfg).run (acts ++ quiet)).clients, ∀ r ∈ c.asked,
      r.number < ((lircd cfg).run acts).requests → r ∈ c.answered := by
  intro c hc r hr hnumber
  rw [Machine.steps_append] at hb
  have hgiven : Given r ((lircd cfg).run acts) :=
    ⟨sane_of_reachable ((lircd cfg).reachable_run acts),
      served_run fun x hx => hb x (List.mem_append_left _ hx), hnumber⟩
  have hquiet : (lircd cfg).AlwaysFrom (Undisturbed cfg) ((lircd cfg).run acts) quiet :=
    fun x hx => ⟨hb x (List.mem_append_right _ hx), hstop x hx⟩
  have hleft : ((lircd cfg).run acts).repeatsLeft r ≤
      (lircd cfg).countFrom counts ((lircd cfg).run acts) quiet := by
    refine le_trans ?_ hn
    rw [repeatsLeft]
    split_ifs
    · exact Nat.le_refl _
    · exact Nat.zero_le _
  have hzero := (answering cfg r).rank_eq_zero hgiven hquiet hleft
  have hserved := ((answering cfg r).keep_runFrom hgiven hquiet).served
  rw [← Machine.run_append] at hzero hserved
  rw [(hserved c hc).inOrder] at hr
  rcases List.mem_append.mp hr with hr | hr
  · exact hr
  · -- the command would still wait
    rw [pending] at hr
    by_cases hwaits : ((lircd cfg).run (acts ++ quiet)).repeatFd = some c.fd
    · rw [if_pos hwaits, Option.mem_toList] at hr
      have hwaitsFor := waitsFor_iff.mpr ⟨c, hc, hwaits, hr⟩
      change repeatsLeft r _ = 0 at hzero
      rw [repeatsLeft, if_pos hwaitsFor] at hzero
      exact absurd hzero (Nat.succ_ne_zero _)
    · rw [if_neg hwaits] at hr
      exact absurd hr List.not_mem_nil

def sentTwice : List Act :=
  [.accept 5, .accept 6, .poll [5], .scan (.bytes "SEND_ONCE tv KEY_OK 2\n".toList),
    .next ⟨.success [], true, 0, true⟩]

theorem repeats_end_sentTwice :
    ((lircd television).run sentTwice).requests = 1 ∧
      ∀ c ∈ ((lircd television).run
          (sentTwice ++ List.replicate 3 (.alarm ⟨false, false, 0, true, true⟩))).clients,
        ∀ r ∈ c.asked, r.number < ((lircd television).run sentTwice).requests → r ∈ c.answered :=
  ⟨by decide, repeats_end television sentTwice _ (by decide)
    (Machine.alwaysFrom_of_forall
      (by
        intro a ha s
        rw [(List.mem_replicate.mp ha).2]
        exact id) _)
    (by decide)⟩

end Daemon

end Orbiter.Lirc
