import Orbiter.Main.Receiver
import Orbiter.Tcp.TCPClient

/-!
# Starting up

`main` starts `tcp_func`, sets the address and the port, and tries to connect until
`setup` returns true.  Meanwhile `tcp_func` receives on the same client, and takes a
failed receive for a lost connection.

* `history`: what is known of the connection before an `exit`.
* `agreement_iff`: **the two threads agree on the connection exactly when `tcp_func`
  neither connects before `main` does nor leaves a connection that came up behind its
  receive.**
* `usesAddress_iff`: **`tcp_func` connects with the address and the port exactly when it
  does so behind their assignment.**
-/

namespace Orbiter.Main.Startup

open Cxx Tcp

/-- Where `main` is: at `argv[1]`, at `ip_addr`, at `port`, in the connect loop, behind it. -/
inductive MainPc
  | argument
  | address
  | port
  | connecting
  | connected
  deriving DecidableEq

/-- Where `tcp_func` is.  Before `exit` it has received an empty string, on the
connection given. -/
inductive TcpPc
  | receive
  | exit (received : Option Nat)
  | setup
  deriving DecidableEq

/-- What the two threads share, where they are, and a history of the connections on
which an empty string was received.  A null `char*` is `none`. -/
structure State where
  argv1 : Option String
  ipAddr : Option String
  port : Nat
  main : MainPc
  tcp : TcpPc
  client : TCPClient
  tcpQueue : List Str
  emptied : List Nat
  aborted : Bool

def init (argv1 : Option String) : State where
  argv1 := argv1
  ipAddr := none
  port := 0
  main := .argument
  tcp := .receive
  client := TCPClient.init
  tcpQueue := []
  emptied := []
  aborted := false

/-- The next step of one of the threads, with the answers of the socket API. -/
inductive Act
  | main (attempt : Attempt)
  | tcp (recv : Option Str) (attempt : Attempt)
  deriving DecidableEq

namespace State

variable (s : State)

/-- A `std::string` made of a null pointer aborts the program. -/
def mainStep (attempt : Attempt) : State :=
  match s.main with
  | .argument => { s with argv1 := s.argv1.or (some "192.168.178.20"), main := .address }
  | .address => { s with ipAddr := s.argv1, main := .port }
  | .port => { s with port := 1234, main := .connecting }
  | .connecting =>
    match s.ipAddr with
    | none => { s with aborted := true }
    | some address =>
      let (connected, client) := s.client.setup address s.port attempt
      { s with client := client, main := if connected then .connected else .connecting }
  | .connected => s

/-- One step of `tcp_func`, which ignores whether its `setup` connects and pushes the
empty string behind it. -/
def tcpStep (recv : Option Str) (attempt : Attempt) : State :=
  match s.tcp with
  | .receive =>
    let msg := receive 100 (s.client.recv recv)
    if msg.length = 0 then
      { s with
        tcp := .exit s.client.connection
        emptied := s.client.connection.toList ++ s.emptied }
    else { s with tcpQueue := s.tcpQueue ++ [msg] }
  | .exit _ => { s with tcp := .setup, client := s.client.exit }
  | .setup =>
    match s.ipAddr with
    | none => { s with aborted := true }
    | some address =>
      { s with
        tcp := .receive
        client := (s.client.setup address s.port attempt).2
        tcpQueue := s.tcpQueue ++ [[]] }

end State

def step (s : State) (a : Act) : State :=
  if s.aborted then s
  else
    match a with
    | .main attempt => s.mainStep attempt
    | .tcp recv attempt => s.tcpStep recv attempt

def machine (argv1 : Option String) : Machine State Act where
  init := init argv1
  step := step

/-! ### The agreement -/

def Exits (s : State) : Prop := s.aborted = false ∧ ∃ received, s.tcp = .exit received

/-- A connection closed by the step has returned an empty string to a receive. -/
def ClosesOwn (s : State) : Act → Prop
  | .main _ => True
  | .tcp _ _ => Exits s → ∀ k, s.client.connection = some k → k ∈ s.emptied

/-- With a connection established, the next `setup` of `main` returns true. -/
def MainAgrees (s : State) : Prop :=
  s.aborted = false → s.main ≠ .connected → s.client.connection ≠ none →
    ∀ address port attempt, (s.client.setup address port attempt).1 = true

/-- The step closes no connection but one that is over, and `main` will agree with the
connection it leaves. -/
def Agreement (s : State) (a : Act) : Prop := ClosesOwn s a ∧ MainAgrees (step s a)

/-- `tcp_func` leaves a connection that came up behind its receive, or it connects before
`main` does. -/
def Breaks (s : State) : Act → Prop
  | .main _ => False
  | .tcp _ attempt => s.aborted = false ∧
      ((s.tcp = .exit none ∧ s.client.connection ≠ none) ∨
        (s.tcp = .setup ∧ s.main ≠ .connected ∧ s.ipAddr ≠ none ∧ s.client.Connects attempt))

/-! ### What is known before an exit -/

/-- The connection before an exit, and the numbers of the connections so far. -/
structure History (s : State) : Prop where
  exit : ∀ k, s.tcp = .exit (some k) → s.client.connection = some k ∧ k ∈ s.emptied
  fresh : s.tcp = .exit none → ∀ k, s.client.connection = some k → k ∉ s.emptied
  emptied : ∀ k ∈ s.emptied, k < s.client.next
  connection : ∀ k, s.client.connection = some k → k < s.client.next

theorem History.setup {s s' : State} (h : History s) {address : String} {port : Nat}
    {attempt : Attempt} (hclient : s'.client = (s.client.setup address port attempt).2)
    (htcp : s'.tcp = s.tcp ∨ s'.tcp = .receive) (hemptied : s'.emptied = s.emptied) :
    History s' := by
  have hexit : ∀ received, s'.tcp = .exit received → s.tcp = .exit received := by
    intro received hr
    rcases htcp with htcp | htcp
    · exact htcp.symm.trans hr
    · exact absurd (htcp.symm.trans hr) (by simp)
  have hcases := s.client.setup_cases address port attempt
  rw [← hclient] at hcases
  rcases hcases with ⟨hconnects, -, hconnection, hnext⟩ | ⟨-, -, hconnection, hnext⟩
  · -- The connection is new, so no empty string was received on it.
    refine ⟨?_, ?_, ?_, ?_⟩
    · intro k hk
      have hold := (h.exit k (hexit _ hk)).1
      exact absurd (hconnects.free.symm.trans hold) (by simp)
    · intro _ k hk hmem
      rw [hemptied] at hmem
      have hlt := h.emptied k hmem
      rw [← Option.some.inj (hconnection.symm.trans hk)] at hlt
      exact lt_irrefl _ hlt
    · intro k hk
      rw [hnext]
      exact Nat.lt_succ_of_lt (h.emptied k (hemptied ▸ hk))
    · intro k hk
      rw [hnext, ← Option.some.inj (hconnection.symm.trans hk)]
      exact Nat.lt_succ_self _
  · refine ⟨?_, ?_, ?_, ?_⟩ <;> simp only [hconnection, hnext, hemptied]
    · exact fun k hk => h.exit k (hexit _ hk)
    · exact fun hk => h.fresh (hexit _ hk)
    · exact h.emptied
    · exact h.connection

theorem History.mainStep {s : State} (h : History s) (attempt : Attempt) :
    History (s.mainStep attempt) := by
  rw [State.mainStep]
  cases hm : s.main with
  | argument => exact ⟨h.exit, h.fresh, h.emptied, h.connection⟩
  | address => exact ⟨h.exit, h.fresh, h.emptied, h.connection⟩
  | port => exact ⟨h.exit, h.fresh, h.emptied, h.connection⟩
  | connecting =>
    cases s.ipAddr with
    | none => exact ⟨h.exit, h.fresh, h.emptied, h.connection⟩
    | some address => exact h.setup rfl (Or.inl rfl) rfl
  | connected => exact h

theorem History.tcpStep {s : State} (h : History s) (recv : Option Str) (attempt : Attempt) :
    History (s.tcpStep recv attempt) := by
  rw [State.tcpStep]
  cases ht : s.tcp with
  | receive =>
    simp only
    split_ifs
    · refine ⟨?_, ?_, ?_, h.connection⟩
      · intro k hk
        have hconnection : s.client.connection = some k := TcpPc.exit.inj hk
        exact ⟨hconnection, by simp [hconnection]⟩
      · intro hk k hconnection
        exact absurd (hconnection.symm.trans (TcpPc.exit.inj hk)) (by simp)
      · intro k hk
        rcases List.mem_append.mp hk with hk | hk
        · exact h.connection k (Option.mem_toList.mp hk)
        · exact h.emptied k hk
    · exact ⟨by simp, by simp, h.emptied, h.connection⟩
  | exit received => exact ⟨nofun, nofun, h.emptied, nofun⟩
  | setup =>
    cases s.ipAddr with
    | none => exact ⟨by simp, by simp, h.emptied, h.connection⟩
    | some address => exact h.setup rfl (Or.inr rfl) rfl

theorem history (argv1 : Option String) : (machine argv1).Invariant History where
  init := ⟨nofun, nofun, nofun, nofun⟩
  step := by
    intro s a _ h
    show History (step s a)
    rw [Startup.step.eq_def]
    split_ifs
    · exact h
    · cases a with
      | main attempt => exact h.mainStep attempt
      | tcp recv attempt => exact h.tcpStep recv attempt

/-! ### The agreement of the two threads -/

/-- Until `main` is connected there is no connection. -/
def Free (s : State) : Prop := s.main ≠ .connected → s.client.connection = none

theorem Free.mainAgrees {s : State} (h : Free s) : MainAgrees s :=
  fun _ hmain hne => absurd (h hmain) hne

theorem Free.mainStep {s : State} (h : Free s) (attempt : Attempt) : Free (s.mainStep attempt) := by
  rw [State.mainStep]
  cases hm : s.main with
  | argument => exact fun _ => h (by simp [hm])
  | address => exact fun _ => h (by simp [hm])
  | port => exact fun _ => h (by simp [hm])
  | connecting =>
    have hfree : s.client.connection = none := h (by simp [hm])
    cases s.ipAddr with
    | none => exact fun _ => hfree
    | some address =>
      rcases s.client.setup_cases address s.port attempt with
        ⟨-, htrue, -, -⟩ | ⟨-, -, hconnection, -⟩
      · intro hmain
        simp only [htrue] at hmain
        exact absurd rfl hmain
      · exact fun _ => hconnection.trans hfree
  | connected => exact fun hmain => absurd hm hmain

/-- A connected client cannot be set up again. -/
theorem not_mainAgrees {s : State} (ha : s.aborted = false) (hm : s.main ≠ .connected)
    (hc : s.client.connection ≠ none) : ¬ MainAgrees s := by
  intro h
  have hsetup := h ha hm hc "" 0 ⟨none, true, true⟩
  exact hc (TCPClient.setup_iff.mp hsetup).free

/-- `tcp_func` is about to connect before `main` does. -/
def ConnectsFirst (s : State) (attempt : Attempt) : Prop :=
  s.tcp = .setup ∧ s.main ≠ .connected ∧ s.ipAddr ≠ none ∧ s.client.Connects attempt

theorem Free.tcpStep {s : State} (h : Free s) (recv : Option Str) {attempt : Attempt}
    (hb : ¬ ConnectsFirst s attempt) : Free (s.tcpStep recv attempt) := by
  rw [State.tcpStep]
  cases ht : s.tcp with
  | receive =>
    simp only
    split_ifs <;> exact h
  | exit received => exact fun _ => rfl
  | setup =>
    cases hip : s.ipAddr with
    | none => exact h
    | some address =>
      intro hmain
      rcases s.client.setup_cases address s.port attempt with
        ⟨hconnects, -, -, -⟩ | ⟨-, -, hconnection, -⟩
      · exact absurd ⟨ht, hmain, by simp [hip], hconnects⟩ hb
      · exact hconnection.trans (h hmain)

/-- Once `tcp_func` has connected, `main` cannot. -/
theorem ConnectsFirst.not_mainAgrees {s : State} {attempt : Attempt}
    (h : ConnectsFirst s attempt) (ha : s.aborted = false) (recv : Option Str) :
    ¬ MainAgrees (s.tcpStep recv attempt) := by
  obtain ⟨ht, hmain, hip, hconnects⟩ := h
  obtain ⟨address, hip⟩ := Option.ne_none_iff_exists'.mp hip
  rcases s.client.setup_cases address s.port attempt with
    ⟨-, -, hconnection, -⟩ | ⟨hno, -, -, -⟩
  · rw [State.tcpStep, ht, hip]
    refine Startup.not_mainAgrees ha hmain ?_
    exact fun hnone => absurd (hconnection.symm.trans hnone) (by simp)
  · exact absurd hconnects hno

/-- What `tcp_func` closes is over, unless it came up behind a receive without a
connection. -/
theorem closesOwn_iff {s : State} (h : History s) (ha : s.aborted = false) (recv : Option Str)
    (attempt : Attempt) :
    ClosesOwn s (.tcp recv attempt) ↔ ¬ (s.tcp = .exit none ∧ s.client.connection ≠ none) := by
  constructor
  · intro hcloses hbreaks
    obtain ⟨k, hk⟩ := Option.ne_none_iff_exists'.mp hbreaks.2
    exact h.fresh hbreaks.1 k hk (hcloses ⟨ha, none, hbreaks.1⟩ k hk)
  · intro hno hexits k hk
    obtain ⟨-, received, hr⟩ := hexits
    cases received with
    | none => exact absurd ⟨hr, by simp [hk]⟩ hno
    | some k' =>
      obtain ⟨hk', hmem⟩ := h.exit k' hr
      rwa [Option.some.inj (hk.symm.trans hk')]

theorem breaks_iff {s : State} (ha : s.aborted = false) {recv : Option Str} {attempt : Attempt} :
    Breaks s (.tcp recv attempt) ↔
      (s.tcp = .exit none ∧ s.client.connection ≠ none) ∨ ConnectsFirst s attempt :=
  and_iff_right ha

theorem agreement_step_iff {s : State} (h : History s) (hfree : Free s) (a : Act) :
    Agreement s a ↔ ¬ Breaks s a := by
  cases ha : s.aborted with
  | true =>
    have hstep : step s a = s := by rw [step.eq_def, if_pos ha]
    have hagrees : MainAgrees (step s a) := by
      rw [hstep]
      exact fun hrunning => absurd (ha.symm.trans hrunning) (by simp)
    cases a with
    | main attempt => exact iff_of_true ⟨trivial, hagrees⟩ id
    | tcp recv attempt =>
      refine iff_of_true ⟨?_, hagrees⟩ ?_
      · exact fun hexits => absurd (ha.symm.trans hexits.1) (by simp)
      · exact fun hbreaks => absurd (ha.symm.trans hbreaks.1) (by simp)
  | false =>
    cases a with
    | main attempt =>
      have hstep : step s (.main attempt) = s.mainStep attempt := by
        rw [step.eq_def, if_neg (by simp [ha])]
      refine iff_of_true ⟨trivial, ?_⟩ id
      rw [hstep]
      exact (hfree.mainStep attempt).mainAgrees
    | tcp recv attempt =>
      have hstep : step s (.tcp recv attempt) = s.tcpStep recv attempt := by
        rw [step.eq_def, if_neg (by simp [ha])]
      rw [Agreement, hstep, closesOwn_iff h ha, breaks_iff ha, not_or]
      refine and_congr_right' ⟨?_, ?_⟩
      · exact fun hagrees hfirst => hfirst.not_mainAgrees ha recv hagrees
      · exact fun hno => (hfree.tcpStep recv hno).mainAgrees

/-- **The two threads agree on the connection exactly when `tcp_func` neither connects
before `main` does nor leaves a connection that came up behind its receive.** -/
theorem agreement_iff (argv1 : Option String) (acts : List Act) :
    (machine argv1).Always Agreement acts ↔
      ∀ x ∈ (machine argv1).steps acts, ¬ Breaks x.1 x.2 := by
  refine Machine.always_iff_steps (m := machine argv1) (P := Agreement)
    (G := fun s a => ¬ Breaks s a) (I := Free) ?_ ?_ ?_ acts
  · exact fun _ => rfl
  · exact fun s a hs hfree => agreement_step_iff ((history argv1).of_reachable hs) hfree a
  · intro s a _ hfree hb
    show Free (step s a)
    rw [step.eq_def]
    split_ifs with ha
    · exact hfree
    · cases a with
      | main attempt => exact hfree.mainStep attempt
      | tcp recv attempt =>
        exact hfree.tcpStep recv fun hfirst =>
          hb ((breaks_iff (Bool.not_eq_true _ ▸ ha)).mpr (Or.inr hfirst))

def reachable : Attempt := ⟨some 3, true, true⟩

/-- `tcp_func` receives, and then `main` connects. -/
def received : List Act :=
  [.tcp none reachable, .main reachable, .main reachable, .main reachable, .main reachable]

/-- `tcp_func` receives, closes and connects, while `main` is about to. -/
def overtaken : List Act :=
  [.main reachable, .main reachable, .main reachable, .tcp none reachable, .tcp none reachable]

/-- Behind the first run `tcp_func` closes the connection of `main`; behind the second it
connects, and `main` is left in its loop. -/
theorem threads_disagree :
    ¬ ClosesOwn ((machine none).run received) (.tcp none reachable) ∧
    ¬ MainAgrees ((machine none).run (overtaken ++ [.tcp none reachable])) ∧
    ¬ ∀ (argv1 : Option String) (acts : List Act), (machine argv1).Always Agreement acts := by
  have hcloses : ¬ ClosesOwn ((machine none).run received) (.tcp none reachable) := by
    intro h
    exact absurd (h ⟨by decide, none, by decide⟩ 0 (by decide)) (by decide)
  refine ⟨hcloses, not_mainAgrees (by decide) (by decide) (by decide), ?_⟩
  intro h
  have hstep := (machine none).mem_steps_concat received (.tcp none reachable)
  exact hcloses (h none _ _ hstep).1

/-! ### The address and the port -/

/-- A `setup` by `tcp_func` is called with the address of `argv[1]`, or its default, and
port 1234. -/
def UsesAddress (argv1 : Option String) (s : State) : Act → Prop
  | .main _ => True
  | .tcp _ _ => s.aborted = false → s.tcp = .setup →
    s.ipAddr = some (argv1.getD "192.168.178.20") ∧ s.port = 1234

/-- `tcp_func` is at its `setup` before `main` has assigned the address and the port. -/
def SetsUpEarly (s : State) : Act → Prop
  | .main _ => False
  | .tcp _ _ => s.aborted = false ∧ s.tcp = .setup ∧
      (s.main = .argument ∨ s.main = .address ∨ s.main = .port)

/-- What `main` has assigned when it is where it is. -/
def AssignedAt (argv1 : Option String) (s : State) : MainPc → Prop
  | .argument => s.argv1 = argv1 ∧ s.ipAddr = none ∧ s.port = 0
  | .address => s.argv1 = some (argv1.getD "192.168.178.20") ∧ s.ipAddr = none ∧ s.port = 0
  | .port => s.ipAddr = some (argv1.getD "192.168.178.20") ∧ s.port = 0
  | .connecting => s.ipAddr = some (argv1.getD "192.168.178.20") ∧ s.port = 1234
  | .connected => s.ipAddr = some (argv1.getD "192.168.178.20") ∧ s.port = 1234

def Assigned (argv1 : Option String) (s : State) : Prop := AssignedAt argv1 s s.main

theorem Assigned.of_main {argv1 : Option String} {s : State} (h : Assigned argv1 s) {pc : MainPc}
    (hpc : s.main = pc) : AssignedAt argv1 s pc := by
  rw [← hpc]
  exact h

theorem Assigned.mainStep {argv1 : Option String} {s : State} (h : Assigned argv1 s)
    (attempt : Attempt) : Assigned argv1 (s.mainStep attempt) := by
  rw [State.mainStep]
  cases hm : s.main with
  | argument =>
    obtain ⟨hargv1, hip, hport⟩ := h.of_main hm
    refine ⟨?_, hip, hport⟩
    rw [hargv1]
    cases argv1 <;> rfl
  | address =>
    obtain ⟨hargv1, -, hport⟩ := h.of_main hm
    exact ⟨hargv1, hport⟩
  | port =>
    obtain ⟨hip, -⟩ := h.of_main hm
    exact ⟨hip, rfl⟩
  | connecting =>
    obtain ⟨hip, hport⟩ := h.of_main hm
    simp only [hip]
    rw [Assigned]
    split_ifs <;> exact ⟨rfl, hport⟩
  | connected => exact h

theorem Assigned.tcpStep {argv1 : Option String} {s : State} (h : Assigned argv1 s)
    (recv : Option Str) (attempt : Attempt) : Assigned argv1 (s.tcpStep recv attempt) := by
  have hkeep : ∀ s' : State, s'.main = s.main → s'.argv1 = s.argv1 → s'.ipAddr = s.ipAddr →
      s'.port = s.port → Assigned argv1 s' := by
    intro s' hmain hargv1 hip hport
    rw [Assigned] at h ⊢
    rw [hmain]
    cases hm : s.main <;> rw [hm] at h <;> simpa only [AssignedAt, hargv1, hip, hport] using h
  rw [State.tcpStep]
  cases s.tcp with
  | receive =>
    simp only
    split_ifs <;> exact hkeep _ rfl rfl rfl rfl
  | exit received => exact hkeep _ rfl rfl rfl rfl
  | setup =>
    simp only
    split <;> exact hkeep _ rfl rfl rfl rfl

theorem assigned (argv1 : Option String) : (machine argv1).Invariant (Assigned argv1) where
  init := ⟨rfl, rfl, rfl⟩
  step := by
    intro s a _ h
    show Assigned argv1 (step s a)
    rw [step.eq_def]
    split_ifs
    · exact h
    · cases a with
      | main attempt => exact h.mainStep attempt
      | tcp recv attempt => exact h.tcpStep recv attempt

/-- A `setup` has the address and the port exactly when `main` has assigned both. -/
theorem Assigned.usesAddress_iff_not_early {argv1 : Option String} {s : State}
    (h : Assigned argv1 s) (a : Act) : UsesAddress argv1 s a ↔ ¬ SetsUpEarly s a := by
  cases a with
  | main attempt => exact iff_of_true trivial id
  | tcp recv attempt =>
    simp only [UsesAddress, SetsUpEarly, not_and]
    refine imp_congr_right fun _ => imp_congr_right fun _ => ?_
    cases hm : s.main with
    | argument =>
      obtain ⟨-, hip, -⟩ := h.of_main hm
      simp [hip]
    | address =>
      obtain ⟨-, hip, -⟩ := h.of_main hm
      simp [hip]
    | port =>
      obtain ⟨-, hport⟩ := h.of_main hm
      simp [hport]
    | connecting => exact iff_of_true (h.of_main hm) (by simp)
    | connected => exact iff_of_true (h.of_main hm) (by simp)

/-- **`tcp_func` connects with the address and the port exactly when it is never at its
`setup` before `main` has assigned both.** -/
theorem usesAddress_iff (argv1 : Option String) (acts : List Act) :
    (machine argv1).Always (UsesAddress argv1) acts ↔
      ∀ x ∈ (machine argv1).steps acts, ¬ SetsUpEarly x.1 x.2 := by
  refine (machine argv1).steps_congr (G := fun s a => ¬ SetsUpEarly s a) ?_ acts
  intro s a hs
  exact ((assigned argv1).of_reachable hs).usesAddress_iff_not_early a

/-- Before `main` goes on, `tcp_func` receives, closes and sets up. -/
theorem null_address : ¬ ∀ (argv1 : Option String) (acts : List Act),
    (machine argv1).Always (UsesAddress argv1) acts := by
  intro h
  have hstep := (machine none).mem_steps_concat
    [.tcp none reachable, .tcp none reachable] (.tcp none reachable)
  have hset := h none _ _ hstep (by decide) (by decide)
  exact absurd hset.1 (by decide)

end Orbiter.Main.Startup
