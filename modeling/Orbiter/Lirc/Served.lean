import Orbiter.Lirc.Daemon

/-!
# Answers in order

The daemon means to answer every client in the order of its commands: it does not poll the
client that waits for its repeats.

* `Served`: every command of a connection is answered, in their order, but the one that is
  being repeated.
* `Breaks`: the steps that end that.
* `served_iff`: **every command is answered in its order exactly in the runs without such a
  step.**
-/

namespace Orbiter.Lirc

open Cxx Frames

namespace Daemon

variable {cfg : Config} {s t : Daemon} {c : Client} {fd : Nat} {line : Str}

/-! ### Who waits -/

def pending (s : Daemon) (fd : Nat) : List Request :=
  if s.repeatFd = some fd then s.repeatMessage.toList else []

/-- The commands of a client are answered in their order, but the one that is being
repeated. -/
structure Serves (s : Daemon) (c : Client) : Prop where
  inOrder : c.asked = c.answered ++ s.pending c.fd
  repeats : s.repeatFd = some c.fd → s.repeating ≠ none

def Served (s : Daemon) : Prop := ∀ c ∈ s.clients, s.Serves c

/-- The client that waits has asked for something. -/
def Sane (s : Daemon) : Prop :=
  ∀ fd, s.repeatFd = some fd → ∃ r, s.repeatMessage = some r ∧ r.number < s.requests

def command (s : Daemon) : Option (Nat × Str) :=
  match s.reading with
  | none => none
  | some (fd, b) => (firstLine b).map fun x => (fd, x.1)

/-- The client that waits is answered something else first. -/
def Overtakes (s : Daemon) (fd : Nat) (hw : Hardware) : Prop :=
  s.repeatFd = some fd ∧ s.Connected fd ∧ hw.written = true

/-- The repetition is stopped by another client than the one that waits for it, which is
not removed. -/
def Forgets (cfg : Config) (s : Daemon) (fd : Nat) (line : Str) (obeyed : Bool) : Prop :=
  s.stops cfg line = true ∧ ∃ c ∈ s.clients, s.repeatFd = some c.fd ∧ c.fd ≠ fd ∧
    (obeyed = false → s.inPlace ≠ some c.fd)

/-- The client whose command fails has moved up, and is not the one that is removed. -/
def Spares (s : Daemon) (fd : Nat) (obeyed : Bool) : Prop :=
  obeyed = false ∧ s.Connected fd ∧ s.inPlace ≠ some fd

/-- The steps that leave a client without its answer, or with another's: the descriptor of
the client that waits is given to a new one, the client that waits is overtaken or
forgotten, the client that cannot be answered is spared, or the answer behind the repeats
cannot be written. -/
def Breaks (cfg : Config) (s : Daemon) : Act → Prop
  | .accept fd =>
    (s.Idle ∧ ¬ s.Connected fd ∧ s.clients.length < maxClients) ∧ s.repeatFd = some fd
  | .next hw => ∃ x ∈ s.command,
    s.Overtakes x.1 hw ∨ s.Forgets cfg x.1 x.2 (s.obey cfg x.1 x.2 hw).1 ∨
      s.Spares x.1 (s.obey cfg x.1 x.2 hw).1
  | .alarm alarm =>
    s.Idle ∧ s.ends alarm = true ∧ alarm.written = false ∧
      ∃ c ∈ s.clients, s.repeatFd = some c.fd
  | .broadcast _ _ => False
  | .poll _ => False
  | .scan _ => False
  | .more _ => False

instance (fd : Nat) (hw : Hardware) : Decidable (s.Overtakes fd hw) :=
  inferInstanceAs (Decidable (s.repeatFd = some fd ∧ s.Connected fd ∧ hw.written = true))

instance (fd : Nat) (line : Str) (obeyed : Bool) : Decidable (s.Forgets cfg fd line obeyed) :=
  inferInstanceAs (Decidable
    (s.stops cfg line = true ∧ ∃ c ∈ s.clients, s.repeatFd = some c.fd ∧ c.fd ≠ fd ∧
      (obeyed = false → s.inPlace ≠ some c.fd)))

instance (fd : Nat) (obeyed : Bool) : Decidable (s.Spares fd obeyed) :=
  inferInstanceAs (Decidable (obeyed = false ∧ s.Connected fd ∧ s.inPlace ≠ some fd))

instance (a : Act) : Decidable (s.Breaks cfg a) :=
  match a with
  | .accept fd =>
    inferInstanceAs (Decidable
      ((s.Idle ∧ ¬ s.Connected fd ∧ s.clients.length < maxClients) ∧ s.repeatFd = some fd))
  | .next hw =>
    inferInstanceAs (Decidable (∃ x ∈ s.command,
      s.Overtakes x.1 hw ∨ s.Forgets cfg x.1 x.2 (s.obey cfg x.1 x.2 hw).1 ∨
        s.Spares x.1 (s.obey cfg x.1 x.2 hw).1))
  | .alarm alarm =>
    inferInstanceAs (Decidable (s.Idle ∧ s.ends alarm = true ∧ alarm.written = false ∧
      ∃ c ∈ s.clients, s.repeatFd = some c.fd))
  | .broadcast _ _ => .isFalse id
  | .poll _ => .isFalse id
  | .scan _ => .isFalse id
  | .more _ => .isFalse id

/-! ### One client -/

theorem Serves.congr (h : s.Serves c) (hfd : t.repeatFd = s.repeatFd)
    (hmessage : t.repeatMessage = s.repeatMessage) (hrepeating : t.repeating = s.repeating) :
    t.Serves c := by
  refine ⟨?_, ?_⟩
  · rw [pending, hfd, hmessage]
    exact h.inOrder
  · rw [hfd, hrepeating]
    exact h.repeats

theorem answered_noise (c : Client) (noise : Noise) :
    (c.write (.noise noise)).answered = c.answered := by
  rw [Client.answered, Client.answered, Client.write, List.filterMap_append]
  exact List.append_nil _

theorem answered_answer (c : Client) (r : Request) (reply : Reply) :
    (c.write (.answer r reply)).answered = c.answered ++ [r] := by
  rw [Client.answered, Client.answered, Client.write, List.filterMap_append]
  rfl

theorem pending_of_ne {fd : Nat} (h : s.repeatFd ≠ some fd) : s.pending fd = [] := by
  rw [pending, if_neg h]

theorem Serves.of_not_waiting (h : c.asked = c.answered) (hfd : t.repeatFd ≠ some c.fd) :
    t.Serves c := by
  refine ⟨?_, fun hc => absurd hc hfd⟩
  rw [pending_of_ne hfd, List.append_nil]
  exact h

theorem Serves.asked_eq (h : s.Serves c) (hfd : s.repeatFd ≠ some c.fd) : c.asked = c.answered := by
  rw [h.inOrder, pending_of_ne hfd, List.append_nil]

theorem Serves.not_waiting (h : s.Serves c) (hnone : s.repeating = none) :
    s.repeatFd ≠ some c.fd := fun hfd => h.repeats hfd hnone

/-! ### Steps that write to nobody -/

theorem Served.congr (h : s.Served) (hclients : t.clients = s.clients)
    (hfd : t.repeatFd = s.repeatFd) (hmessage : t.repeatMessage = s.repeatMessage)
    (hrepeating : t.repeating = s.repeating) : t.Served := by
  intro c hc
  exact (h c (hclients ▸ hc)).congr hfd hmessage hrepeating

theorem Served.reading_iff (s : Daemon) (reading : Option (Nat × Str)) :
    ({ s with reading := reading } : Daemon).Served ↔ s.Served :=
  ⟨fun h => h.congr rfl rfl rfl rfl, fun h => h.congr rfl rfl rfl rfl⟩

theorem mem_of_mem_dismiss (hc : c ∈ s.dismiss.clients) : c ∈ s.clients := by
  rw [clients_dismiss] at hc
  exact (List.mem_filter.mp hc).1

theorem Served.dismiss (h : s.Served) : s.dismiss.Served := by
  intro c hc
  obtain ⟨stale, heq⟩ := dismiss_eq s
  exact (h c (mem_of_mem_dismiss hc)).congr (by rw [heq]) (by rw [heq]) (by rw [heq])

theorem Served.readOn (h : s.Served) (fd : Nat) (b : Str) : (s.readOn fd b).Served := by
  rw [Daemon.readOn]
  split_ifs
  · exact h.congr rfl rfl rfl rfl
  · exact h.dismiss.congr rfl rfl rfl rfl

theorem Served.broadcast (h : s.Served) (noise : Noise) (lost : List Nat) :
    (s.broadcast noise lost).Served := by
  obtain ⟨stale, heq⟩ := broadcast_eq s noise lost
  rw [heq]
  intro c' hc'
  obtain ⟨c, hc, rfl⟩ := List.mem_map.mp hc'
  obtain ⟨horder, hrepeats⟩ := h c (List.mem_filter.mp hc).1
  refine ⟨?_, hrepeats⟩
  rw [answered_noise]
  exact horder

theorem served_accept (hs : s.Served) (hsane : s.Sane) (fd : Nat) :
    (s.accept fd).Served ↔ ¬ s.Breaks cfg (.accept fd) := by
  rw [accept]
  by_cases hc : s.Idle ∧ ¬ s.Connected fd ∧ s.clients.length < maxClients
  · rw [if_pos hc]
    show (∀ c ∈ s.clients ++ [⟨fd, [], []⟩], Serves _ c) ↔ ¬ (_ ∧ _)
    rw [List.forall_mem_append, List.forall_mem_singleton]
    constructor
    · rintro ⟨-, hnew⟩ ⟨-, hfd⟩
      obtain ⟨r, hr, -⟩ := hsane fd hfd
      have horder := hnew.inOrder
      rw [pending, if_pos hfd, hr] at horder
      exact absurd horder (by simp)
    · intro hb
      refine ⟨fun c hmem => (hs c hmem).congr rfl rfl rfl, .of_not_waiting rfl ?_⟩
      exact fun hfd => hb ⟨hc, hfd⟩
  · rw [if_neg hc]
    exact iff_of_true hs fun hb => hc hb.1

/-! ### The timer -/

theorem mem_answerRepeat (hs : s.Served) (hsane : s.Sane) {reply : Reply} {c : Client}
    (hc : c ∈ (s.answerRepeat reply true).clients) : c.asked = c.answered := by
  rw [answerRepeat] at hc
  cases hfd : s.repeatFd with
  | none =>
    rw [hfd] at hc
    exact (hs c hc).asked_eq (by simp [hfd])
  | some fd =>
    obtain ⟨r, hr, -⟩ := hsane fd hfd
    rw [hfd, hr] at hc
    obtain ⟨c, hmem, rfl⟩ := List.mem_map.mp hc
    by_cases hcfd : c.fd = fd
    · rw [if_pos hcfd, answered_answer]
      show c.asked = _
      rw [(hs c hmem).inOrder, pending, if_pos (by rw [hfd, hcfd]), hr]
      rfl
    · rw [if_neg hcfd]
      refine (hs c hmem).asked_eq fun h => hcfd ?_
      rw [hfd, Option.some.injEq] at h
      exact h.symm

theorem answerRepeat_unwritten (s : Daemon) (reply : Reply) : s.answerRepeat reply false = s := by
  rw [answerRepeat]
  split
  · rfl
  · rfl

theorem Ended.serves_iff {t : Daemon} {written : Bool} (h : Ended s t written) (hs : s.Served)
    (hsane : s.Sane) :
    t.Served ↔ ¬ (written = false ∧ ∃ c ∈ s.clients, s.repeatFd = some c.fd) := by
  obtain ⟨reply, hclients⟩ := h.clients
  have hnone : ∀ fd, t.repeatFd ≠ some fd := fun fd => by simp [h.repeatFd]
  cases written with
  | true =>
    refine iff_of_true ?_ (by simp)
    intro c hc
    rw [hclients] at hc
    exact .of_not_waiting (mem_answerRepeat hs hsane hc) (hnone _)
  | false =>
    rw [answerRepeat_unwritten] at hclients
    constructor
    · rintro ht ⟨-, c, hc, hfd⟩
      obtain ⟨r, hr, -⟩ := hsane _ hfd
      have horder := (hs c hc).inOrder
      rw [(ht c (hclients ▸ hc)).asked_eq (hnone _), pending, if_pos hfd, hr] at horder
      exact absurd horder (by simp)
    · intro hb c hc
      rw [hclients] at hc
      have hfd : s.repeatFd ≠ some c.fd := fun hfd => hb ⟨rfl, c, hc, hfd⟩
      exact .of_not_waiting ((hs c hc).asked_eq hfd) (hnone _)

theorem served_alarm (hs : s.Served) (hsane : s.Sane) (alarm : Alarm) :
    (s.step cfg (.alarm alarm)).Served ↔ ¬ s.Breaks cfg (.alarm alarm) := by
  rw [step]
  show _ ↔ ¬ (s.Idle ∧ s.ends alarm = true ∧ alarm.written = false ∧ _)
  by_cases hidle : s.Idle
  · rw [if_pos hidle]
    cases hends : s.ends alarm with
    | false =>
      obtain ⟨countdown, hgo, -⟩ := dosigalrm_of_not_ends hends
      refine iff_of_true ?_ (by simp)
      rw [hgo]
      exact fun c hc => (hs c hc).congr rfl rfl rfl
    | true =>
      rw [(dosigalrm_of_ends hends).serves_iff hs hsane]
      simp [hidle]
  · rw [if_neg hidle]
    exact iff_of_true hs fun hb => hidle hb.1

/-! ### A command -/

theorem Serves.other_iff (h : s.Serves c) (hfd : t.repeatFd = s.repeatFd)
    (hmessage : t.repeatMessage = s.repeatMessage)
    (hnone : t.repeating = none → s.repeating = none ∨ s.stops cfg line = true)
    (hstops : s.stops cfg line = true → t.repeating = none) :
    t.Serves c ↔ ¬ (s.stops cfg line = true ∧ s.repeatFd = some c.fd) := by
  constructor
  · rintro ht ⟨hstop, hwaits⟩
    exact ht.repeats (hfd.trans hwaits) (hstops hstop)
  · intro hb
    refine ⟨?_, ?_⟩
    · rw [pending, hfd, hmessage]
      exact h.inOrder
    · rintro hwaits hrepeating
      rw [hfd] at hwaits
      rcases hnone hrepeating with hidle | hstop
      · exact h.repeats hwaits hidle
      · exact hb ⟨hstop, hwaits⟩

theorem not_serves_ask (h : s.Serves c) (hfd : t.repeatFd = s.repeatFd)
    (hmessage : t.repeatMessage = s.repeatMessage) (r : Request) : ¬ t.Serves (c.ask r) := by
  intro ht
  have horder := ht.inOrder
  change c.asked ++ [r] = c.answered ++ t.pending c.fd at horder
  rw [pending, hfd, hmessage, ← pending, ← h.inOrder] at horder
  exact absurd horder (by simp)

theorem served_unwritten (hs : s.Served) (hclients : t.clients = (s.asks fd line).clients)
    (hplace : t.inPlace = s.inPlace) (hfd : t.repeatFd = s.repeatFd)
    (hmessage : t.repeatMessage = s.repeatMessage)
    (hnone : t.repeating = none → s.repeating = none ∨ s.stops cfg line = true)
    (hstops : s.stops cfg line = true → t.repeating = none) :
    t.dismiss.Served ↔ ¬ (s.Forgets cfg fd line false ∨ s.Spares fd false) := by
  obtain ⟨stale, heq⟩ := dismiss_eq t
  have hother : ∀ c ∈ s.clients,
      (t.dismiss.Serves c ↔ ¬ (s.stops cfg line = true ∧ s.repeatFd = some c.fd)) := by
    intro c hc
    refine (hs c hc).other_iff ?_ ?_ ?_ ?_ <;> rw [heq]
    · exact hfd
    · exact hmessage
    · exact hnone
    · exact hstops
  constructor
  · rintro ht (⟨hstop, c, hc, hwaits, hne, hstays⟩ | ⟨-, ⟨c, hc, rfl⟩, hstays⟩)
    · refine (hother c hc).mp (ht c ?_) ⟨hstop, hwaits⟩
      rw [clients_dismiss, List.mem_filter, decide_eq_true_iff, hplace, hclients]
      exact ⟨List.mem_map.mpr ⟨c, hc, if_neg hne⟩, hstays rfl⟩
    · -- it stays, and has asked once more
      refine not_serves_ask (hs c hc) ?_ ?_ ⟨s.requests, line⟩ (ht _ ?_)
      · rw [heq]
        exact hfd
      · rw [heq]
        exact hmessage
      · rw [clients_dismiss, List.mem_filter, decide_eq_true_iff, hplace, hclients]
        exact ⟨List.mem_map.mpr ⟨c, hc, if_pos rfl⟩, hstays⟩
  · intro hb c' hc'
    rw [clients_dismiss, List.mem_filter, decide_eq_true_iff, hplace, hclients] at hc'
    obtain ⟨hmem, hstays⟩ := hc'
    obtain ⟨c, hc, rfl⟩ := List.mem_map.mp hmem
    by_cases hcfd : c.fd = fd
    · rw [if_pos hcfd] at hstays
      exact absurd (Or.inr ⟨rfl, ⟨c, hc, hcfd⟩, hcfd ▸ hstays⟩) hb
    · rw [if_neg hcfd] at hstays ⊢
      refine (hother c hc).mpr ?_
      rintro ⟨hstop, hwaits⟩
      exact hb (Or.inl ⟨hstop, c, hc, hwaits, hcfd, fun _ => hstays⟩)

theorem served_written (hs : s.Served) (hsane : s.Sane) {reply : Reply}
    (hclients : t.clients = ((s.asks fd line).onClient fd
      (Client.write · (.answer ⟨s.requests, line⟩ reply))).clients)
    (hfd : t.repeatFd = s.repeatFd) (hmessage : t.repeatMessage = s.repeatMessage)
    (hnone : t.repeating = none → s.repeating = none ∨ s.stops cfg line = true)
    (hstops : s.stops cfg line = true → t.repeating = none) :
    t.Served ↔ ¬ ((s.repeatFd = some fd ∧ s.Connected fd) ∨ s.Forgets cfg fd line true) := by
  constructor
  · rintro ht (⟨hwaits, c, hc, rfl⟩ | ⟨hstop, c, hc, hwaits, hne, -⟩)
    · -- its command would be answered before the one it waits for
      obtain ⟨r, hr, hnumber⟩ := hsane _ hwaits
      have hmem : (c.ask ⟨s.requests, line⟩).write (.answer ⟨s.requests, line⟩ reply) ∈
          t.clients := by
        rw [hclients]
        refine List.mem_map.mpr ⟨c.ask ⟨s.requests, line⟩, List.mem_map.mpr ⟨c, hc, ?_⟩, ?_⟩
        · exact if_pos rfl
        · exact if_pos rfl
      have horder := (ht _ hmem).inOrder
      rw [answered_answer] at horder
      change c.asked ++ [_] = c.answered ++ [_] ++ t.pending c.fd at horder
      rw [(hs c hc).inOrder, pending, pending, hfd, hmessage, if_pos hwaits, hr,
        List.append_assoc, List.append_assoc, List.append_cancel_left_eq] at horder
      obtain ⟨heq, -⟩ := List.cons.inj horder
      rw [heq] at hnumber
      exact absurd hnumber (Nat.lt_irrefl _)
    · refine ((hs c hc).other_iff hfd hmessage hnone hstops).mp (ht c ?_) ⟨hstop, hwaits⟩
      rw [hclients]
      exact List.mem_map.mpr ⟨c, List.mem_map.mpr ⟨c, hc, if_neg hne⟩, if_neg hne⟩
  · intro hb c' hc'
    rw [hclients] at hc'
    obtain ⟨c'', hc'', rfl⟩ := List.mem_map.mp hc'
    obtain ⟨c, hc, rfl⟩ := List.mem_map.mp hc''
    by_cases hcfd : c.fd = fd
    · have hfree : s.repeatFd ≠ some c.fd := fun hwaits =>
        hb (Or.inl ⟨by rw [← hcfd]; exact hwaits, c, hc, hcfd⟩)
      rw [if_pos hcfd, if_pos (show (c.ask _).fd = fd from hcfd)]
      refine .of_not_waiting ?_ (by rw [hfd]; exact hfree)
      rw [answered_answer]
      exact congrArg (· ++ [_]) ((hs c hc).asked_eq hfree)
    · rw [if_neg hcfd, if_neg hcfd]
      refine ((hs c hc).other_iff hfd hmessage hnone hstops).mpr ?_
      rintro ⟨hstop, hwaits⟩
      exact hb (Or.inr ⟨hstop, c, hc, hwaits, hcfd, fun h => absurd h (by simp)⟩)

theorem served_waits (hs : s.Served) (hidle : s.repeating = none)
    (hclients : t.clients = (s.asks fd line).clients) (hfd : t.repeatFd = some fd)
    (hmessage : t.repeatMessage = some ⟨s.requests, line⟩) (hrepeating : t.repeating ≠ none) :
    t.Served := by
  intro c' hc'
  rw [hclients] at hc'
  obtain ⟨c, hc, rfl⟩ := List.mem_map.mp hc'
  have hasked := (hs c hc).asked_eq ((hs c hc).not_waiting hidle)
  by_cases hcfd : c.fd = fd
  · rw [if_pos hcfd]
    refine ⟨?_, fun _ => hrepeating⟩
    show c.asked ++ [_] = c.answered ++ t.pending c.fd
    rw [pending, hfd, hcfd, if_pos rfl, hmessage, hasked]
    rfl
  · rw [if_neg hcfd]
    refine .of_not_waiting hasked ?_
    rw [hfd, ne_eq, Option.some.injEq]
    exact fun h => hcfd h.symm

theorem command_eq {b rest : Str} (hreading : s.reading = some (fd, b))
    (hline : firstLine b = some (line, rest)) : s.command = some (fd, line) := by
  rw [command, hreading]
  show (firstLine b).map _ = _
  rw [hline]
  rfl

theorem breaks_next {b rest : Str} (hreading : s.reading = some (fd, b))
    (hline : firstLine b = some (line, rest)) (hw : Hardware) :
    s.Breaks cfg (.next hw) ↔ s.Overtakes fd hw ∨
      s.Forgets cfg fd line (s.obey cfg fd line hw).1 ∨ s.Spares fd (s.obey cfg fd line hw).1 := by
  show (∃ x ∈ s.command, _) ↔ _
  rw [command_eq hreading hline]
  simp

theorem command_eq_none (h : ∀ x ∈ s.reading, firstLine x.2 = none) : s.command = none := by
  rw [command]
  cases hreading : s.reading with
  | none => rfl
  | some x => exact Option.map_eq_none_iff.mpr (h x hreading)

theorem served_next (hs : s.Served) (hsane : s.Sane) (hw : Hardware) :
    (s.next cfg hw).Served ↔ ¬ s.Breaks cfg (.next hw) := by
  have htakes := takes cfg s hw
  generalize s.next cfg hw = t at htakes
  cases htakes with
  | same hline => exact iff_of_true hs (by simp [Breaks, command_eq_none hline])
  | answers fd b line rest reply repeating countdown hreading hline hobeyed hwritten hnone hstops =>
    rw [breaks_next hreading hline, hobeyed]
    have hanswered : (onClient { s.asks fd line with
        repeating := repeating, countdown := countdown } fd
          (Client.write · (.answer ⟨s.requests, line⟩ reply))).Served ↔ _ :=
      served_written hs hsane rfl rfl rfl hnone hstops
    refine (Served.reading_iff _ _).trans (hanswered.trans ?_)
    simp [Overtakes, Spares, hwritten]
  | fails fd b line rest repeating countdown hreading hline hobeyed hwritten hnone hstops =>
    rw [breaks_next hreading hline, hobeyed]
    have hunwritten : (dismiss { s.asks fd line with
        repeating := repeating, countdown := countdown }).Served ↔ _ :=
      served_unwritten hs rfl (inPlace_asks s fd line) rfl rfl hnone hstops
    refine (Served.reading_iff _ none).trans (hunwritten.trans ?_)
    simp [Overtakes, hwritten]
  | waits fd b line rest repeating countdown hreading hline hobeyed hidle =>
    rw [breaks_next hreading hline, hobeyed]
    refine iff_of_true (served_waits hs hidle rfl rfl rfl (by simp)) ?_
    rintro (⟨hwaits, ⟨c, hc, rfl⟩, -⟩ | ⟨-, c, hc, hwaits, -⟩ | ⟨h, -⟩)
    · exact (hs c hc).not_waiting hidle hwaits
    · exact (hs c hc).not_waiting hidle hwaits
    · exact absurd h (by simp)

/-! ### Every run -/

theorem Sane.congr (h : s.Sane) (hfd : t.repeatFd = s.repeatFd)
    (hmessage : t.repeatMessage = s.repeatMessage) (hrequests : s.requests ≤ t.requests) :
    t.Sane := by
  intro fd hwaits
  obtain ⟨r, hr, hnumber⟩ := h fd (hfd.symm.trans hwaits)
  exact ⟨r, hmessage.trans hr, hnumber.trans_le hrequests⟩

theorem Sane.dismiss (h : s.Sane) : s.dismiss.Sane := by
  obtain ⟨stale, heq⟩ := dismiss_eq s
  exact h.congr (by rw [heq]) (by rw [heq]) (by rw [heq])

theorem Sane.broadcast (h : s.Sane) (noise : Noise) (lost : List Nat) :
    (s.broadcast noise lost).Sane := by
  obtain ⟨stale, heq⟩ := broadcast_eq s noise lost
  rw [heq]
  exact h.congr rfl rfl (Nat.le_refl _)

theorem Sane.readOn (h : s.Sane) (fd : Nat) (b : Str) : (s.readOn fd b).Sane := by
  rw [Daemon.readOn]
  split_ifs
  · exact h.congr rfl rfl (Nat.le_refl _)
  · exact h.dismiss.congr rfl rfl (Nat.le_refl _)

theorem sane_of_none (h : t.repeatFd = none) : t.Sane := by
  intro fd hwaits
  rw [h] at hwaits
  exact absurd hwaits (by simp)

theorem Sane.next (h : s.Sane) (hw : Hardware) : (s.next cfg hw).Sane := by
  have htakes := takes cfg s hw
  generalize s.next cfg hw = t at htakes
  cases htakes with
  | same => exact h
  | answers => exact h.congr rfl rfl (Nat.le_succ _)
  | fails fd b line rest repeating countdown =>
    have hasked : ({ s.asks fd line with
        repeating := repeating, countdown := countdown } : Daemon).Sane :=
      h.congr rfl rfl (Nat.le_succ _)
    exact hasked.dismiss.congr rfl rfl (Nat.le_refl _)
  | waits fd b line => exact fun _ _ => ⟨⟨s.requests, line⟩, rfl, Nat.lt_succ_self _⟩

theorem Sane.getCommand (h : s.Sane) (fd : Nat) (bytes : ReadResult) :
    (s.getCommand fd bytes).Sane := by
  cases bytes with
  | bytes b => exact h.readOn fd _
  | again => exact h
  | failed => exact h

theorem Sane.scan (h : s.Sane) (bytes : ReadResult) : (s.scan bytes).Sane := by
  have hscan := scanned s bytes
  generalize s.scan bytes = t at hscan
  cases hscan with
  | same => exact h
  | ended => exact h.congr rfl rfl (Nat.le_refl _)
  | reads fd i pollFds c =>
    have hlooked : ({ s with pollFds := pollFds, place := i } : Daemon).Sane :=
      h.congr rfl rfl (Nat.le_refl _)
    exact hlooked.getCommand c.fd bytes

theorem Sane.more (h : s.Sane) (bytes : ReadResult) : (s.more bytes).Sane := by
  rw [Daemon.more]
  cases hreading : s.reading with
  | none => exact h
  | some x =>
    obtain ⟨fd, b⟩ := x
    dsimp only
    split_ifs
    · exact h
    · cases bytes with
      | bytes b' =>
        dsimp only
        split_ifs
        · exact h.dismiss.congr rfl rfl (Nat.le_refl _)
        · exact h.readOn fd _
      | again => exact h.congr rfl rfl (Nat.le_refl _)
      | failed => exact h.congr rfl rfl (Nat.le_refl _)

theorem Sane.step (h : s.Sane) (a : Act) : (s.step cfg a).Sane := by
  cases a with
  | accept fd =>
    show (s.accept fd).Sane
    rw [accept]
    split_ifs
    · exact h.congr rfl rfl (Nat.le_refl _)
    · exact h
  | broadcast noise lost => exact h.broadcast noise lost
  | poll ready =>
    show (s.poll ready).Sane
    rw [poll]
    split_ifs
    · exact h.congr rfl rfl (Nat.le_refl _)
    · exact h
  | scan bytes => exact h.scan bytes
  | next hw => exact h.next hw
  | more bytes => exact h.more bytes
  | alarm alarm =>
    rw [Daemon.step]
    split_ifs
    · cases hends : s.ends alarm with
      | false =>
        obtain ⟨countdown, hgo, -⟩ := dosigalrm_of_not_ends hends
        rw [hgo]
        exact h.congr rfl rfl (Nat.le_refl _)
      | true => exact sane_of_none (dosigalrm_of_ends hends).repeatFd
    · exact h

theorem sane_of_reachable (hs : (lircd cfg).Reachable s) : s.Sane :=
  Machine.Invariant.of_reachable ⟨sane_of_none rfl, fun _ a _ h => h.step a⟩ hs

theorem Served.poll (h : s.Served) (ready : List Nat) : (s.poll ready).Served := by
  rw [Daemon.poll]
  split_ifs
  · exact h.congr rfl rfl rfl rfl
  · exact h

theorem Served.getCommand (h : s.Served) (fd : Nat) (bytes : ReadResult) :
    (s.getCommand fd bytes).Served := by
  cases bytes with
  | bytes b => exact h.readOn fd _
  | again => exact h
  | failed => exact h

theorem Served.scan (h : s.Served) (bytes : ReadResult) : (s.scan bytes).Served := by
  have hscan := scanned s bytes
  generalize s.scan bytes = t at hscan
  cases hscan with
  | same => exact h
  | ended => exact h.congr rfl rfl rfl rfl
  | reads fd i pollFds c =>
    have hlooked : ({ s with pollFds := pollFds, place := i } : Daemon).Served :=
      h.congr rfl rfl rfl rfl
    exact hlooked.getCommand c.fd bytes

theorem Served.more (h : s.Served) (bytes : ReadResult) : (s.more bytes).Served := by
  rw [Daemon.more]
  cases hreading : s.reading with
  | none => exact h
  | some x =>
    obtain ⟨fd, b⟩ := x
    dsimp only
    split_ifs
    · exact h
    · cases bytes with
      | bytes b' =>
        dsimp only
        split_ifs
        · exact h.dismiss.congr rfl rfl rfl rfl
        · exact h.readOn fd _
      | again => exact h.congr rfl rfl rfl rfl
      | failed => exact h.congr rfl rfl rfl rfl

theorem served_step (hs : s.Served) (hsane : s.Sane) (a : Act) :
    (s.step cfg a).Served ↔ ¬ s.Breaks cfg a := by
  cases a with
  | accept fd => exact served_accept hs hsane fd
  | broadcast noise lost => exact iff_of_true (hs.broadcast noise lost) id
  | poll ready => exact iff_of_true (hs.poll ready) id
  | scan bytes => exact iff_of_true (hs.scan bytes) id
  | next hw => exact served_next hs hsane hw
  | more bytes => exact iff_of_true (hs.more bytes) id
  | alarm alarm => exact served_alarm hs hsane alarm

theorem served_run {acts : List Act} (h : ∀ x ∈ (lircd cfg).steps acts, ¬ x.1.Breaks cfg x.2) :
    ((lircd cfg).run acts).Served := by
  induction acts using List.reverseRecOn with
  | nil => exact fun _ hc => absurd hc List.not_mem_nil
  | append_singleton acts a ih =>
    rw [Machine.steps_concat] at h
    rw [Machine.run_concat]
    have hs := ih fun x hx => h x (List.mem_append_left _ hx)
    have ha := h _ (List.mem_append_right _ (List.mem_singleton_self _))
    exact (served_step hs (sane_of_reachable ((lircd cfg).reachable_run acts)) a).mpr ha

/-- **Every command is answered in its order, and nobody waits but for a repetition under
way, exactly in the runs in which no client that waits is overtaken, forgotten or
replaced, and none that cannot be answered is spared.** -/
theorem served_iff (cfg : Config) (acts : List Act) :
    (lircd cfg).Always (fun s a => (s.step cfg a).Served) acts ↔
      ∀ x ∈ (lircd cfg).steps acts, ¬ x.1.Breaks cfg x.2 :=
  Machine.always_step_iff_steps (fun _ hc => absurd hc List.not_mem_nil)
    (fun _ a hs hserved => served_step hserved (sane_of_reachable hs) a) acts

/-- Another client stops the repeats the first one waits for. -/
example : ¬ ∀ x ∈ (lircd television).steps
    [.accept 5, .accept 6, .poll [5], .scan (.bytes "SEND_ONCE tv KEY_OK 2\n".toList),
      .next ⟨.success [], true, 0, true⟩, .poll [6], .scan (.bytes "SEND_STOP\n".toList),
      .next ⟨.success [], true, 0, true⟩], ¬ x.1.Breaks television x.2 := by
  decide

/-- The first client is lost to the broadcast of the second one's command, whose answer
cannot be written: the third one is removed for it. -/
example : ((lircd television).run
    [.accept 5, .accept 6, .accept 7, .poll [6],
      .scan (.bytes "SIMULATE 0000000000000001 00 KEY_OK tv\n".toList),
      .broadcast (.broadcast "0000000000000001 00 KEY_OK tv\n".toList) [5],
      .next ⟨.success [], true, 0, false⟩]).clis = [6] := by
  decide

end Daemon

end Orbiter.Lirc
