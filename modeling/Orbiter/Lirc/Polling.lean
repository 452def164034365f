import Orbiter.Lirc.Served

/-!
# The clients that are polled

`mywaitfordata` polls the clients by their descriptors and looks at those that are ready by
their places.  When one is removed the others move up, and the flags do not.

* `Aligned`: in every place still to be looked at is the client that was ready.
* `aligned_iff`: **that is so exactly in the runs in which no client up to such a place is
  removed.**
* `Apart`: the client that waits is not among those looked at.
* `not_overtaken`: **in these runs only a client that sends more behind the command it waits
  for is overtaken.**
-/

namespace Orbiter.Lirc

open Cxx Frames

/-! ### Places of a filtered list -/

theorem place_filter_le {α : Type*} {p : α → Bool} {a : α} {l : List α} (hl : l.Nodup)
    {i j : Nat} (hi : l[i]? = some a) (hj : (l.filter p)[j]? = some a) : j ≤ i := by
  induction l generalizing i j with
  | nil => exact absurd hi (by simp)
  | cons b l ih =>
    obtain ⟨hb, hl⟩ := List.nodup_cons.mp hl
    cases hp : p b with
    | false =>
      rw [List.filter_cons_of_neg (by simp [hp])] at hj
      cases i with
      | zero =>
        obtain rfl := Option.some.inj hi
        exact absurd (List.mem_of_mem_filter (List.mem_of_getElem? hj)) hb
      | succ i => exact (ih hl hi hj).trans (Nat.le_succ i)
    | true =>
      rw [List.filter_cons_of_pos hp] at hj
      cases j with
      | zero => exact Nat.zero_le i
      | succ j =>
        cases i with
        | zero =>
          obtain rfl := Option.some.inj hi
          exact absurd (List.mem_of_mem_filter (List.mem_of_getElem? hj)) hb
        | succ i => exact Nat.succ_le_succ (ih hl hi hj)

/-- Who is kept stays in its place when everybody in front is kept. -/
theorem place_filter_iff {α : Type*} {p : α → Bool} {a : α} {l : List α} (hl : l.Nodup)
    {i : Nat} (hi : l[i]? = some a) :
    (l.filter p)[i]? = some a ↔ ∀ b ∈ l.take (i + 1), p b = true := by
  induction l generalizing i with
  | nil => exact absurd hi (by simp)
  | cons b l ih =>
    obtain ⟨hb, hl⟩ := List.nodup_cons.mp hl
    rw [List.take_succ_cons, List.forall_mem_cons]
    cases hp : p b with
    | false =>
      rw [List.filter_cons_of_neg (by simp [hp])]
      refine iff_of_false (fun hj => ?_) (by simp)
      cases i with
      | zero =>
        obtain rfl := Option.some.inj hi
        exact hb (List.mem_of_mem_filter (List.mem_of_getElem? hj))
      | succ i => exact absurd (place_filter_le hl hi hj) (Nat.not_succ_le_self i)
    | true =>
      rw [List.filter_cons_of_pos hp]
      cases i with
      | zero => exact iff_of_true hi ⟨rfl, by simp⟩
      | succ i => exact (ih hl hi).trans (by simp)

namespace Daemon

variable {cfg : Config} {s t u : Daemon} {c : Client} {fd : Nat}

/-! ### The places -/

/-- In every place still to be looked at is the client that was ready. -/
def Aligned (s : Daemon) : Prop := ∀ x ∈ s.pollFds, s.clis[x.2]? = some x.1

/-- The step removes a client that is not behind all places still to be looked at. -/
def Moves (cfg : Config) (s : Daemon) (a : Act) : Prop :=
  ∃ x ∈ (s.step cfg a).pollFds, ∃ fd ∈ s.clis.take (x.2 + 1), fd ∉ (s.step cfg a).clis

instance : Decidable s.Aligned :=
  inferInstanceAs (Decidable (∀ x ∈ s.pollFds, s.clis[x.2]? = some x.1))

instance (a : Act) : Decidable (s.Moves cfg a) :=
  inferInstanceAs (Decidable
    (∃ x ∈ (s.step cfg a).pollFds, ∃ fd ∈ s.clis.take (x.2 + 1), fd ∉ (s.step cfg a).clis))

/-- A step that connects and polls nobody. -/
structure Thins (s t : Daemon) : Prop where
  clis : ∃ p : Nat → Bool, t.clis = s.clis.filter p
  pollFds : t.pollFds ⊆ s.pollFds

theorem thins_of_clis (h : t.clis = s.clis) (hpoll : t.pollFds ⊆ s.pollFds) : Thins s t :=
  ⟨⟨fun _ => true, by rw [h, List.filter_true]⟩, hpoll⟩

theorem thins_self (s : Daemon) : Thins s s := thins_of_clis rfl fun _ h => h

theorem Thins.trans (h : Thins s t) (h' : Thins t u) : Thins s u := by
  obtain ⟨p, hp⟩ := h.clis
  obtain ⟨q, hq⟩ := h'.clis
  exact ⟨⟨_, by rw [hq, hp, List.filter_filter]⟩, fun _ hx => h.pollFds (h'.pollFds hx)⟩

theorem thins_dismiss (s : Daemon) : Thins s s.dismiss := by
  refine ⟨⟨fun fd => s.inPlace ≠ some fd, ?_⟩, ?_⟩
  · rw [clis, clis, clients_dismiss, List.filter_map]
    rfl
  · obtain ⟨stale, heq⟩ := dismiss_eq s
    rw [heq]
    exact fun _ h => h

theorem thins_broadcast (s : Daemon) (noise : Noise) (lost : List Nat) :
    Thins s (s.broadcast noise lost) := by
  obtain ⟨stale, heq⟩ := broadcast_eq s noise lost
  rw [heq]
  refine ⟨⟨fun fd => fd ∉ lost, ?_⟩, fun _ h => h⟩
  rw [clis, clis, List.filter_map, List.map_map]
  rfl

theorem thins_readOn (s : Daemon) (fd : Nat) (b : Str) : Thins s (s.readOn fd b) := by
  rw [readOn]
  split_ifs
  · exact thins_of_clis rfl fun _ h => h
  · exact (thins_dismiss s).trans (thins_of_clis rfl fun _ h => h)

theorem thins_scan (s : Daemon) (bytes : ReadResult) : Thins s (s.scan bytes) := by
  have hscan := scanned s bytes
  generalize s.scan bytes = t at hscan
  cases hscan with
  | same => exact thins_self s
  | ended => exact thins_of_clis rfl (List.nil_subset _)
  | reads fd i pollFds c hreading hpoll =>
    have hlooked : Thins s { s with pollFds := pollFds, place := i } :=
      thins_of_clis rfl (by rw [hpoll]; exact List.subset_cons_self _ _)
    cases bytes with
    | bytes b => exact hlooked.trans (thins_readOn _ c.fd _)
    | again => exact hlooked
    | failed => exact hlooked

theorem thins_more (s : Daemon) (bytes : ReadResult) : Thins s (s.more bytes) := by
  rw [more]
  cases hreading : s.reading with
  | none => exact thins_self s
  | some x =>
    obtain ⟨fd, b⟩ := x
    dsimp only
    split_ifs
    · exact thins_self s
    · cases bytes with
      | bytes b' =>
        dsimp only
        split_ifs
        · exact (thins_dismiss s).trans (thins_of_clis rfl fun _ h => h)
        · exact thins_readOn s fd _
      | again => exact thins_of_clis rfl fun _ h => h
      | failed => exact thins_of_clis rfl fun _ h => h

theorem thins_next (s : Daemon) (hw : Hardware) : Thins s (s.next cfg hw) := by
  have hasks : ∀ fd line, Thins s (s.asks fd line) := fun fd line =>
    thins_of_clis (clis_onClient s fd fun _ => rfl) fun _ h => h
  have htakes := takes cfg s hw
  generalize s.next cfg hw = t at htakes
  cases htakes with
  | same => exact thins_self s
  | answers fd b line =>
    exact (hasks fd line).trans (thins_of_clis (clis_onClient _ fd fun _ => rfl) fun _ h => h)
  | fails fd b line rest repeating countdown =>
    have hanswer : Thins s { s.asks fd line with
        repeating := repeating, countdown := countdown } :=
      (hasks fd line).trans (thins_of_clis rfl fun _ h => h)
    exact hanswer.trans ((thins_dismiss _).trans (thins_of_clis rfl fun _ h => h))
  | waits fd b line => exact (hasks fd line).trans (thins_of_clis rfl fun _ h => h)

/-! ### One step -/

def Distinct (s : Daemon) : Prop := s.clis.Nodup

theorem Thins.distinct (h : Thins s t) (hs : s.Distinct) : t.Distinct := by
  obtain ⟨p, hp⟩ := h.clis
  rw [Distinct, hp]
  exact hs.filter p

theorem Thins.stays_aligned_iff (h : Thins s t) (hs : s.Distinct) (haligned : s.Aligned) :
    t.Aligned ↔ ¬ ∃ x ∈ t.pollFds, ∃ fd ∈ s.clis.take (x.2 + 1), fd ∉ t.clis := by
  obtain ⟨p, hp⟩ := h.clis
  have hkept : ∀ fd ∈ s.clis, p fd = true ↔ fd ∈ t.clis := fun fd hfd => by
    rw [hp, List.mem_filter, and_iff_right hfd]
  push Not
  refine forall₂_congr fun x hx => ?_
  rw [hp, place_filter_iff hs (haligned x (h.pollFds hx)), ← hp]
  exact forall₂_congr fun fd hfd => hkept fd (List.mem_of_mem_take hfd)

theorem aligned_of_nil (h : s.pollFds = []) : s.Aligned := by
  intro x hx
  rw [h] at hx
  exact absurd hx List.not_mem_nil

theorem clis_answerRepeat (s : Daemon) (reply : Reply) (written : Bool) :
    (s.answerRepeat reply written).clis = s.clis := by
  rw [answerRepeat]
  split
  · rename_i fd r _ _
    rw [answer]
    split_ifs
    · exact clis_onClient s fd fun _ => rfl
    · rfl
  · rfl

theorem thins_dosigalrm (s : Daemon) (alarm : Alarm) : Thins s (s.dosigalrm alarm) := by
  cases hends : s.ends alarm with
  | false =>
    obtain ⟨countdown, hgo, -⟩ := dosigalrm_of_not_ends hends
    rw [hgo]
    exact thins_of_clis rfl fun _ h => h
  | true =>
    have hended := dosigalrm_of_ends hends
    obtain ⟨reply, hclients⟩ := hended.clients
    refine thins_of_clis ?_ fun _ h => hended.pollFds ▸ h
    rw [clis, hclients]
    exact clis_answerRepeat s reply alarm.written

theorem aligned_poll (haligned : s.Aligned) (ready : List Nat) : (s.poll ready).Aligned := by
  rw [poll]
  split_ifs
  · intro x hx
    exact List.mem_zipIdx_iff_getElem?.mp (List.mem_filter.mp hx).1
  · exact haligned

theorem clis_poll (s : Daemon) (ready : List Nat) : (s.poll ready).clis = s.clis := by
  rw [poll]
  split_ifs
  · rfl
  · rfl

theorem aligned_accept (haligned : s.Aligned) (fd : Nat) : (s.accept fd).Aligned := by
  rw [accept]
  split_ifs with h
  · exact aligned_of_nil h.1.2
  · exact haligned

theorem subset_clis_accept (s : Daemon) (fd : Nat) : s.clis ⊆ (s.accept fd).clis := by
  rw [accept]
  split_ifs
  · intro fd' h
    show fd' ∈ (s.clients ++ [_]).map Client.fd
    rw [List.map_append]
    exact List.mem_append_left _ h
  · exact fun _ h => h

theorem distinct_accept (hs : s.Distinct) (fd : Nat) : (s.accept fd).Distinct := by
  rw [accept]
  split_ifs with h
  · show ((s.clients ++ [_]).map Client.fd).Nodup
    rw [List.map_append, List.map_singleton, List.nodup_append]
    refine ⟨hs, List.nodup_singleton _, ?_⟩
    rintro fd' hfd' fd'' hfd'' rfl
    obtain ⟨c, hc, hcfd⟩ := List.mem_map.mp hfd'
    rw [List.mem_singleton.mp hfd''] at hcfd
    exact h.2.1 ⟨c, hc, hcfd⟩
  · exact hs

theorem thins_step (s : Daemon) {a : Act} (haccept : ∀ fd, a ≠ .accept fd)
    (hpoll : ∀ ready, a ≠ .poll ready) : Thins s (s.step cfg a) := by
  cases a with
  | accept fd => exact absurd rfl (haccept fd)
  | broadcast noise lost => exact thins_broadcast s noise lost
  | poll ready => exact absurd rfl (hpoll ready)
  | scan bytes => exact thins_scan s bytes
  | next hw => exact thins_next s hw
  | more bytes => exact thins_more s bytes
  | alarm alarm =>
    rw [step]
    split_ifs
    · exact thins_dosigalrm s alarm
    · exact thins_self s

theorem distinct_step (hs : s.Distinct) (a : Act) : (s.step cfg a).Distinct := by
  cases a with
  | accept fd => exact distinct_accept hs fd
  | poll ready =>
    rw [Distinct]
    exact (clis_poll s ready).symm ▸ hs
  | _ => exact (thins_step s (by simp) (by simp)).distinct hs

theorem distinct_of_reachable (hs : (lircd cfg).Reachable s) : s.Distinct :=
  Machine.Invariant.of_reachable (m := lircd cfg)
    ⟨List.nodup_nil, fun s a _ h => show (s.step cfg a).Distinct from distinct_step h a⟩ hs

theorem aligned_step (haligned : s.Aligned) (hs : s.Distinct) (a : Act) :
    (s.step cfg a).Aligned ↔ ¬ s.Moves cfg a := by
  cases a with
  | accept fd =>
    refine iff_of_true (aligned_accept haligned fd) ?_
    rintro ⟨x, -, fd', hfd', hlost⟩
    exact hlost (subset_clis_accept s fd (List.mem_of_mem_take hfd'))
  | poll ready =>
    refine iff_of_true (aligned_poll haligned ready) ?_
    rintro ⟨x, -, fd', hfd', hlost⟩
    exact hlost ((clis_poll s ready).symm ▸ List.mem_of_mem_take hfd')
  | _ => exact (thins_step s (by simp) (by simp)).stays_aligned_iff hs haligned

/-- **Who is looked at is who was ready, exactly in the runs in which no client up to a place
still to be looked at is removed.** -/
theorem aligned_iff (cfg : Config) (acts : List Act) :
    (lircd cfg).Always (fun s a => (s.step cfg a).Aligned) acts ↔
      ∀ x ∈ (lircd cfg).steps acts, ¬ x.1.Moves cfg x.2 :=
  Machine.always_step_iff_steps (aligned_of_nil rfl)
    (fun _ a hs haligned => aligned_step haligned (distinct_of_reachable hs) a) acts

/-- The first client is removed, and the third is looked at in the place of the second. -/
example : ((lircd television).run [.accept 5, .accept 6, .accept 7, .poll [5, 6],
    .scan (.bytes []), .scan (.bytes "LIST\n".toList)]).reading = some (7, "LIST\n".toList) := by
  decide

/-! ### The client that waits -/

/-- A command begins to wait, and more of its client is in the buffer. -/
def Pipelines (cfg : Config) (s : Daemon) : Act → Prop
  | .next hw => (s.next cfg hw).repeatFd ≠ s.repeatFd ∧ (s.next cfg hw).reading ≠ none
  | _ => False

instance (a : Act) : Decidable (s.Pipelines cfg a) :=
  match a with
  | .next hw =>
    inferInstanceAs (Decidable
      ((s.next cfg hw).repeatFd ≠ s.repeatFd ∧ (s.next cfg hw).reading ≠ none))
  | .accept _ => .isFalse id
  | .broadcast _ _ => .isFalse id
  | .poll _ => .isFalse id
  | .scan _ => .isFalse id
  | .more _ => .isFalse id
  | .alarm _ => .isFalse id

/-- The client that waits is neither read from nor to be looked at, and nobody is to be
looked at twice. -/
structure Apart (s : Daemon) : Prop where
  polled : ∀ x ∈ s.pollFds, s.repeatFd ≠ some x.1
  distinct : (s.pollFds.map Prod.fst).Nodup
  reading : ∀ x ∈ s.reading, s.repeatFd ≠ some x.1 ∧ x.1 ∉ s.pollFds.map Prod.fst

/-- A step behind which nobody waits that did not wait before. -/
theorem Apart.keep (h : s.Apart) (hpoll : t.pollFds = s.pollFds)
    (hfd : ∀ fd, t.repeatFd = some fd → s.repeatFd = some fd)
    (hreading : ∀ x ∈ t.reading, ∃ y ∈ s.reading, y.1 = x.1) : t.Apart := by
  refine ⟨?_, ?_, ?_⟩
  · intro x hx hwaits
    rw [hpoll] at hx
    exact h.polled x hx (hfd _ hwaits)
  · rw [hpoll]
    exact h.distinct
  · intro x hx
    obtain ⟨y, hy, hyx⟩ := hreading x hx
    obtain ⟨hwaits, hlooked⟩ := h.reading y hy
    rw [hpoll, ← hyx]
    exact ⟨fun hx => hwaits (hfd _ hx), hlooked⟩

theorem apart_poll (h : s.Apart) (hs : s.Distinct) (ready : List Nat) : (s.poll ready).Apart := by
  rw [poll]
  split_ifs with hidle
  · refine ⟨?_, ?_, ?_⟩
    · intro x hx
      have hready := of_decide_eq_true (List.mem_filter.mp hx).2
      exact hready.2
    · have hsub := (List.filter_sublist (l := s.clis.zipIdx)
        (p := fun x => decide (x.1 ∈ ready ∧ s.repeatFd ≠ some x.1))).map Prod.fst
      rw [List.zipIdx_map_fst] at hsub
      exact hs.sublist hsub
    · intro x hx
      exact absurd (hidle.1 ▸ hx : x ∈ (none : Option (Nat × Str))) (by simp)
  · exact h

theorem apart_scan (h : s.Apart) (haligned : s.Aligned) (bytes : ReadResult) :
    (s.scan bytes).Apart := by
  have hscan := scanned s bytes
  generalize s.scan bytes = t at hscan
  cases hscan with
  | same => exact h
  | ended => exact ⟨by simp, List.nodup_nil, fun x hx => ⟨(h.reading x hx).1, List.not_mem_nil⟩⟩
  | reads fd i pollFds c hreading hpoll hc =>
    -- it is the client that was ready
    have hfd : c.fd = fd := by
      have hplace := haligned (fd, i) (by rw [hpoll]; exact List.mem_cons_self)
      rw [clis, List.getElem?_map, hc] at hplace
      exact Option.some.inj hplace
    have hwaits : s.repeatFd ≠ some fd := h.polled _ (by rw [hpoll]; exact List.mem_cons_self)
    have hdistinct := h.distinct
    rw [hpoll, List.map_cons, List.nodup_cons] at hdistinct
    have hlooked : Apart { s with pollFds := pollFds, place := i } := by
      refine ⟨fun x hx => h.polled x (by rw [hpoll]; exact List.mem_cons_of_mem _ hx),
        hdistinct.2, fun x hx => ?_⟩
      exact absurd (hreading ▸ hx : x ∈ (none : Option (Nat × Str))) (by simp)
    cases bytes with
    | bytes b =>
      obtain ⟨clients, stale, reading, heq, hread⟩ :=
        readOn_eq { s with pollFds := pollFds, place := i } c.fd (b.take packetSize)
      rw [getCommand, heq]
      refine ⟨hlooked.polled, hdistinct.2, fun x hx => ?_⟩
      rw [hread x hx, hfd]
      exact ⟨hwaits, hdistinct.1⟩
    | again => exact hlooked
    | failed => exact hlooked

theorem apart_more (h : s.Apart) (bytes : ReadResult) : (s.more bytes).Apart := by
  rw [more]
  cases hreading : s.reading with
  | none => exact h
  | some x =>
    obtain ⟨fd, b⟩ := x
    dsimp only
    split_ifs
    · exact h
    · cases bytes with
      | bytes b' =>
        dsimp only
        split_ifs
        · obtain ⟨stale, heq⟩ := dismiss_eq s
          rw [heq]
          exact h.keep rfl (fun _ => id) (by simp)
        · obtain ⟨clients, stale, reading, heq, hread⟩ :=
            readOn_eq s fd (b ++ b'.take (packetSize - b.length))
          rw [heq]
          exact h.keep rfl (fun _ => id) fun x hx => ⟨(fd, b), hreading, (hread x hx).symm⟩
      | again => exact h.keep rfl (fun _ => id) (by simp)
      | failed => exact h.keep rfl (fun _ => id) (by simp)

theorem apart_next (h : s.Apart) {hw : Hardware} (hp : ¬ s.Pipelines cfg (.next hw)) :
    (s.next cfg hw).Apart := by
  change ¬ (_ ∧ _) at hp
  have hrest : ∀ (fd : Nat) (rest : Str), ∀ x ∈ (if rest = [] then none else some (fd, rest)),
      fd = x.1 := by
    intro fd rest x hx
    split_ifs at hx
    · exact absurd hx (by simp)
    · rw [← Option.some.inj hx]
  have htakes := takes cfg s hw
  generalize s.next cfg hw = t at hp htakes
  cases htakes with
  | same => exact h
  | answers fd b line rest reply repeating countdown hreading =>
    exact h.keep rfl (fun _ => id) fun x hx => ⟨(fd, b), hreading, hrest fd rest x hx⟩
  | fails fd b line rest repeating countdown =>
    obtain ⟨stale, heq⟩ := dismiss_eq { s.asks fd line with
      repeating := repeating, countdown := countdown }
    rw [heq]
    exact h.keep rfl (fun _ => id) fun _ hx => absurd hx (by simp)
  | waits fd b line rest repeating countdown hreading =>
    obtain ⟨hwaits, hlooked⟩ := h.reading _ hreading
    have hover : (if rest = [] then none else some (fd, rest)) = none :=
      not_not.mp fun hmore => hp ⟨fun hfd => hwaits hfd.symm, hmore⟩
    refine ⟨?_, h.distinct, ?_⟩
    · intro x hx hfd
      rw [Option.some.inj hfd] at hlooked
      exact hlooked (List.mem_map_of_mem hx)
    · intro x hx
      exact absurd (hover ▸ hx : x ∈ (none : Option (Nat × Str))) (by simp)

theorem apart_alarm (h : s.Apart) (alarm : Alarm) : (s.dosigalrm alarm).Apart := by
  cases hends : s.ends alarm with
  | false =>
    obtain ⟨countdown, hgo, -⟩ := dosigalrm_of_not_ends hends
    rw [hgo]
    exact h.keep rfl (fun _ => id) fun x hx => ⟨x, hx, rfl⟩
  | true =>
    have hended := dosigalrm_of_ends hends
    refine h.keep hended.pollFds (fun fd hfd => ?_) fun x hx => ⟨x, hended.reading ▸ hx, rfl⟩
    rw [hended.repeatFd] at hfd
    exact absurd hfd (by simp)

/-- **The client that waits is left alone.** -/
theorem apart_step (h : s.Apart) (haligned : s.Aligned) (hs : s.Distinct) {a : Act}
    (hp : ¬ s.Pipelines cfg a) : (s.step cfg a).Apart := by
  cases a with
  | accept fd =>
    show (s.accept fd).Apart
    rw [accept]
    split_ifs
    · exact h.keep rfl (fun _ => id) fun x hx => ⟨x, hx, rfl⟩
    · exact h
  | broadcast noise lost =>
    show (s.broadcast noise lost).Apart
    obtain ⟨stale, heq⟩ := broadcast_eq s noise lost
    rw [heq]
    exact h.keep rfl (fun _ => id) fun x hx => ⟨x, hx, rfl⟩
  | poll ready => exact apart_poll h hs ready
  | scan bytes => exact apart_scan h haligned bytes
  | next hw => exact apart_next h hp
  | more bytes => exact apart_more h bytes
  | alarm alarm =>
    rw [step]
    split_ifs
    · exact apart_alarm h alarm
    · exact h

theorem apart_run {acts : List Act}
    (h : ∀ x ∈ (lircd cfg).steps acts, ¬ x.1.Moves cfg x.2 ∧ ¬ x.1.Pipelines cfg x.2) :
    ((lircd cfg).run acts).Apart ∧ ((lircd cfg).run acts).Aligned := by
  induction acts using List.reverseRecOn with
  | nil => exact ⟨⟨by simp [lircd], List.nodup_nil, by simp [lircd]⟩, aligned_of_nil rfl⟩
  | append_singleton acts a ih =>
    rw [Machine.steps_concat] at h
    rw [Machine.run_concat]
    obtain ⟨hapart, haligned⟩ := ih fun x hx => h x (List.mem_append_left _ hx)
    obtain ⟨hmoves, hp⟩ := h _ (List.mem_append_right _ (List.mem_singleton_self _))
    have hs := distinct_of_reachable ((lircd cfg).reachable_run acts)
    exact ⟨apart_step hapart haligned hs hp, (aligned_step haligned hs a).mpr hmoves⟩

theorem reading_of_command {x : Nat × Str} (h : x ∈ s.command) :
    ∃ b, s.reading = some (x.1, b) := by
  rw [command] at h
  cases hreading : s.reading with
  | none =>
    rw [hreading] at h
    exact absurd h (by simp)
  | some y =>
    obtain ⟨fd, b⟩ := y
    rw [hreading] at h
    obtain ⟨z, -, rfl⟩ := Option.map_eq_some_iff.mp h
    exact ⟨b, rfl⟩

/-- **No command is taken from a client that waits**, when no client up to a place still to
be looked at is removed and nobody sends more behind the command it waits for. -/
theorem not_overtaken (cfg : Config) (acts : List Act)
    (h : ∀ x ∈ (lircd cfg).steps acts, ¬ x.1.Moves cfg x.2 ∧ ¬ x.1.Pipelines cfg x.2) :
    ∀ x ∈ (lircd cfg).steps acts, ∀ y ∈ x.1.command, x.1.repeatFd ≠ some y.1 := by
  rintro ⟨s, a⟩ hx ⟨fd, line⟩ hy
  obtain ⟨before, behind, rfl, rfl⟩ := ((lircd cfg).mem_steps_iff).mp hx
  rw [Machine.steps_append] at h
  obtain ⟨hapart, -⟩ := apart_run fun x hx => h x (List.mem_append_left _ hx)
  obtain ⟨b, hreading⟩ := reading_of_command hy
  exact (hapart.reading _ hreading).1

/-- A button sent with two repeats, and a list asked for meanwhile. -/
def sentAndListed : List Act :=
  [.accept 5, .accept 6, .poll [5], .scan (.bytes "SEND_ONCE tv KEY_OK 2\n".toList),
    .next ⟨.success [], true, 0, true⟩, .poll [5, 6], .scan (.bytes "LIST\n".toList),
    .next ⟨.success [], true, 0, true⟩]

/-- Two clients; the first one waits while the second one is answered. -/
theorem not_overtaken_twoClients :
    ((lircd television).run (sentAndListed.take 5)).repeatFd = some 5 ∧
      ∀ x ∈ (lircd television).steps sentAndListed, ∀ y ∈ x.1.command, x.1.repeatFd ≠ some y.1 :=
  ⟨by decide, not_overtaken television sentAndListed (by decide)⟩

end Daemon

end Orbiter.Lirc
