import Orbiter.Machine.Ranking
import Orbiter.Main.DigitBuffer
import Orbiter.Main.Rotation
import Orbiter.Toolbox.Grammar

/-!
# How far the target position goes

`iAngle` and `iTargetPosition` are `int`s.  A message sets the angle from three digits,
the keys NEXT and PREVIOUS move it by 15 degrees and the key `>10` moves the target by
100000 units, so only a person who keeps pressing can get them out of the range of an
`int`.

* `angularDistance_le`: what a message can ask for.
* `steered_run`: **the target grows by at most 15 degrees for each press that steers.**
* `moves_fit_iff`: **10300 presses are the most that can never overflow the target.**
-/

namespace Orbiter.Main

open Cxx Toolbox Stimuli Globals

/-- The keys that move the angle or the target. -/
def Taste.steers : Taste → Bool
  | .next => true
  | .prev => true
  | .sub10 => true
  | _ => false

def steered (g : Globals) : Act → Bool
  | .tick _ => g.pressed.any Taste.steers
  | _ => false

def steering (env : Env) (acts : List Act) : Nat := (machine env).countFrom steered init acts

/-! ### What a message asks for -/

/-- **A message turns by less than 1000 degrees.** -/
theorem angularDistance_lt (env : Env) (s : Str) :
    |(decodeHostData env.pow s 0).angularDistance| < 1000 := by
  by_cases ha : ∃ f, Accepts s 0 f
  · obtain ⟨f, hf⟩ := ha
    have hread := readFields_eq_ok_iff.mp hf.1
    have hbound : ∀ p v, (p, v) ∈ layout.zip f.values → v.natAbs < 10 ^ p.2 := by
      intro p v hpv
      have hp := layout_bound p (List.of_mem_zip hpv).1
      have hlen : (field (window s (startIdx 0)) p).length ≤ p.2 := List.length_take_le _ _
      have hnine : (field (window s (startIdx 0)) p).length ≤ 9 := by omega
      have hv := strtol_natAbs_lt ((stoi_eq_ok_iff_strtol hnine v).mp (hread (p, v) hpv))
      exact lt_of_lt_of_le hv (Nat.pow_le_pow_right (by decide) hlen)
    have hangle : f.angularDistance.natAbs < 10 ^ 3 :=
      hbound (9, 3) _ (by simp [layout, Fields.values])
    have hhundredths : f.angularDistanceDiv100.natAbs < 10 ^ 2 :=
      hbound (13, 2) _ (by simp [layout, Fields.values])
    have h1 : -999 ≤ f.angularDistance ∧ f.angularDistance ≤ 999 := by omega
    have h2 : -99 ≤ f.angularDistanceDiv100 ∧ f.angularDistanceDiv100 ≤ 99 := by omega
    rw [angularDistance_eq env hf, hundredths, abs_lt]
    have h3 : (-99999 : ℚ) ≤ ((100 * f.angularDistance + f.angularDistanceDiv100 : Int) : ℚ) := by
      exact_mod_cast (by omega : (-99999 : Int) ≤ _)
    have h4 : ((100 * f.angularDistance + f.angularDistanceDiv100 : Int) : ℚ) ≤ 99999 := by
      exact_mod_cast (by omega : _ ≤ (99999 : Int))
    constructor <;> linarith
  · rw [decodeHostData_of_not_accepts (not_exists.mp ha)]
    show |(0 : ℚ)| < 1000
    norm_num

/-- Every `HostData` of the store turns by less than 1000 degrees. -/
theorem angularDistance_heap {env : Env} {g : Globals} (h : Started (g.hostData env) g.heap)
    (r : Ref) : |(g.heap.deref r).angularDistance| < 1000 := by
  have hdecoded : |((g.hostData env).deref r).angularDistance| < 1000 := by
    by_cases hr : r < g.decoded.length
    · have hget : (g.hostData env).deref r = decodeHostData env.pow (g.decoded[r]) 0 := by
        simp [Store.deref, hostData, List.getD_eq_getElem?_getD, hr]
      rw [hget]
      exact angularDistance_lt env _
    · rw [Store.deref_of_ge (by simpa [Store.next, hostData] using hr)]
      show |(0 : ℚ)| < 1000
      norm_num
  rcases h.deref r with hr | hr <;> rw [hr] <;> exact hdecoded

/-! ### One step -/

def reach (n : Nat) : ℚ := 999 + 15 * n

/-- Behind `n` presses that steer. -/
structure Remote.Steered (n : Nat) (r : Remote) : Prop where
  iAngle : |(r.iAngle : ℚ)| ≤ reach n
  iTargetPosition : |(r.iTargetPosition : ℚ)| ≤ unitsPerDegree * reach n
  moves : ∀ target : Int, .move target ∈ r.calls → |(target : ℚ)| ≤ unitsPerDegree * reach n

theorem reach_le {m n : Nat} (h : m ≤ n) : reach m ≤ reach n := by
  have hcast : (m : ℚ) ≤ n := by exact_mod_cast h
  rw [reach, reach]
  linarith

theorem unitsPerDegree_pos : 0 < unitsPerDegree :=
  lt_of_lt_of_le (by norm_num) hundred_le_unitsPerDegree

namespace Remote

variable {n : Nat} {r : Remote}

theorem Steered.mono {m : Nat} (h : r.Steered m) (hmn : m ≤ n) : r.Steered n := by
  have hreach := reach_le hmn
  have hunits := mul_le_mul_of_nonneg_left hreach unitsPerDegree_pos.le
  exact ⟨h.iAngle.trans hreach, h.iTargetPosition.trans hunits,
    fun target ht => (h.moves target ht).trans hunits⟩

theorem calcTargetPosition_iTargetPosition (r : Remote) :
    r.calcTargetPosition.iTargetPosition = truncate (unitsPerDegree * r.iAngle) := by
  show truncate _ = _
  congr 1
  rw [unitsPerDegree]
  ring

theorem Steered.calcTargetPosition (hangle : |(r.iAngle : ℚ)| ≤ reach n)
    (hmoves : ∀ target : Int, .move target ∈ r.calls → |(target : ℚ)| ≤ unitsPerDegree * reach n) :
    r.calcTargetPosition.Steered n := by
  refine ⟨hangle, ?_, hmoves⟩
  rw [calcTargetPosition_iTargetPosition]
  refine (abs_truncate_le _).trans ?_
  rw [abs_mul, abs_of_pos unitsPerDegree_pos]
  exact mul_le_mul_of_nonneg_left hangle unitsPerDegree_pos.le

theorem startMovement_of_zero {d : HostData} (hd : d.direction = 0) : r.startMovement d = r := by
  rw [Remote.startMovement, if_neg (by omega), if_neg (by omega), if_neg (by omega)]

theorem startMovement_of_ne_zero {d : HostData} (hd : d.direction ≠ 0) : r.startMovement d =
    { r with iAngle := nextAngle d r.iAngle }.calcTargetPosition.log [.setSpeed d.speed,
      .move { r with iAngle := nextAngle d r.iAngle }.calcTargetPosition.iTargetPosition] := by
  simp only [Remote.startMovement, if_pos hd, nextAngle]
  split_ifs with h1 h2
  · omega
  · rfl
  · rfl
  · rfl

/-- The angle of a movement is its own, or the one there is. -/
theorem abs_nextAngle_le (h : |(r.iAngle : ℚ)| ≤ reach n) {d : HostData}
    (hd : |d.angularDistance| < 1000) : |(nextAngle d r.iAngle : ℚ)| ≤ reach n := by
  have hown : ∀ x : ℚ, |x| < 1000 → |(truncate x : ℚ)| ≤ reach n := by
    intro x hx
    have hlt : |(truncate x : ℚ)| < 1000 := (abs_truncate_le x).trans_lt hx
    have hint : |truncate x| < 1000 := by exact_mod_cast hlt
    have hle : |(truncate x : ℚ)| ≤ 999 := by exact_mod_cast Int.le_of_lt_add_one hint
    have hn : (0 : ℚ) ≤ n := Nat.cast_nonneg n
    rw [reach]
    linarith
  rw [nextAngle]
  split_ifs with h1 h2
  · exact hown _ hd
  · exact hown _ (by rwa [mul_neg_one, abs_neg])
  · exact h

theorem Steered.startMovement (h : r.Steered n) {d : HostData} (hd : |d.angularDistance| < 1000) :
    (r.startMovement d).Steered n := by
  by_cases h0 : d.direction = 0
  · rwa [startMovement_of_zero h0]
  · rw [startMovement_of_ne_zero h0]
    have hcalc := Steered.calcTargetPosition (r := { r with iAngle := nextAngle d r.iAngle })
      (abs_nextAngle_le h.iAngle hd) h.moves
    refine ⟨hcalc.iAngle, hcalc.iTargetPosition, ?_⟩
    intro target ht
    rcases List.mem_append.mp ht with ht | ht
    · exact h.moves target ht
    · simp only [List.mem_cons, reduceCtorEq, MotorCall.move.injEq, List.not_mem_nil, or_false,
        false_or] at ht
      rw [ht]
      exact hcalc.iTargetPosition

/-- The keys that do not steer leave the angle and move by the target there is. -/
theorem Steered.act_of_not_steers (h : r.Steered n) {key : Taste} (hk : key.steers = false) :
    (r.act key).Steered n := by
  have hcalls : ∀ target : Int, .move target ∈ (r.act key).calls →
      |(target : ℚ)| ≤ unitsPerDegree * reach n := by
    intro target ht
    rw [act_calls] at ht
    rcases List.mem_append.mp ht with ht | ht
    · exact h.moves target ht
    · cases key <;> simp [actCalls, Taste.digit] at ht
      rw [ht]
      exact h.iTargetPosition
  cases hd : key.digit with
  | some digit =>
    have hact : r.act key = (r.setCNumb r.iNumbOffs digit).calcTargetPosition := by
      cases key <;> simp [Taste.digit] at hd <;> subst hd <;> rfl
    rw [hact] at hcalls ⊢
    exact Steered.calcTargetPosition h.iAngle hcalls
  | none =>
    refine ⟨?_, ?_, hcalls⟩
    · cases key <;> first
        | exact h.iAngle
        | exact absurd hd (by decide)
        | exact absurd hk (by decide)
    · cases key <;> first
        | exact h.iTargetPosition | exact absurd hd (by decide) | exact absurd hk (by decide)

/-- A press that steers reaches 15 degrees further. -/
theorem Steered.act_of_steers (h : r.Steered n) {key : Taste} (hk : key.steers = true) :
    (r.act key).Steered (n + 1) := by
  have hfurther : reach (n + 1) = reach n + 15 := by
    rw [reach, reach]
    push_cast
    ring
  have hturned : ∀ a : ℚ, |a| ≤ 15 → |(r.iAngle : ℚ) + a| ≤ reach (n + 1) := by
    intro a ha
    have habs := abs_add_le (r.iAngle : ℚ) a
    have hangle := h.iAngle
    linarith
  have hmono := h.mono (Nat.le_succ n)
  cases key with
  | prev =>
    refine Steered.calcTargetPosition ?_ hmono.moves
    have habs := hturned (-15) (by norm_num)
    push_cast
    rwa [sub_eq_add_neg]
  | next =>
    refine Steered.calcTargetPosition ?_ hmono.moves
    have habs := hturned 15 (by norm_num)
    push_cast
    exact habs
  | sub10 =>
    refine ⟨hmono.iAngle, ?_, hmono.moves⟩
    have hunits : (100000 : ℚ) ≤ unitsPerDegree * 15 := by
      rw [unitsPerDegree, railperi, wheelperi]
      norm_num
    have habs := abs_add_le (r.iTargetPosition : ℚ) 100000
    have htarget := h.iTargetPosition
    have hnum : |(100000 : ℚ)| = 100000 := by norm_num
    show |((r.iTargetPosition + 100000 : Int) : ℚ)| ≤ _
    rw [hfurther]
    push_cast
    linarith
  | _ => exact absurd hk (by decide)

end Remote

/-! ### Every run -/

variable {env : Env}

theorem steering_concat (env : Env) (acts : List Act) (a : Act) : steering env (acts ++ [a]) =
    steering env acts + if steered ((machine env).run acts) a then 1 else 0 := by
  rw [steering, Machine.countFrom_append, Machine.countFrom_cons, Machine.countFrom_nil, zero_add]
  rfl

theorem steered_afterMovement {g : Globals} (hg : (machine env).Reachable g) {n : Nat}
    (h : g.remote.Steered n) (answers : Answers) :
    (g.afterMovement env answers).remote.Steered n := by
  have hheap := angularDistance_heap
    (started_hostData_afterMessage (started_hostData.of_reachable hg))
  have hremote : (g.afterMessage env).remote.Steered n := by
    rwa [(afterMessage_frame env g).remote]
  rw [afterMovement]
  rcases processMovement_cases (g := g.afterMessage env) answers.movementReached with
    ⟨-, hp⟩ | ⟨front, rest, -, -, hp⟩ | ⟨front, rest, -, -, -, -, hp⟩ | ⟨-, -, -, -, hp⟩ <;> rw [hp]
  · exact hremote
  · exact hremote.startMovement (hheap front)
  · exact hremote.startMovement (hheap front)
  · exact hremote

/-- **The target grows by at most 15 degrees for each press that steers.** -/
theorem steered_run (acts : List Act) :
    ((machine env).run acts).remote.Steered (steering env acts) := by
  induction acts using List.reverseRecOn with
  | nil =>
    have hreach : 0 ≤ reach 0 := by
      rw [reach]
      norm_num
    refine ⟨?_, ?_, nofun⟩
    · show |((0 : Int) : ℚ)| ≤ reach 0
      rwa [Int.cast_zero, abs_zero]
    · show |((0 : Int) : ℚ)| ≤ unitsPerDegree * reach 0
      rw [Int.cast_zero, abs_zero]
      exact mul_nonneg unitsPerDegree_pos.le hreach
  | append_singleton acts a ih =>
    rw [Machine.run_concat, steering_concat]
    cases a with
    | tcpPush msg => exact ih
    | irPush code => exact ih
    | tick answers =>
      have hmovement := steered_afterMovement ((machine env).reachable_run acts) ih answers
      show (((machine env).run acts).timerFunc env answers).remote.Steered
        (steering env acts + if ((machine env).run acts).pressed.any Taste.steers then 1 else 0)
      rw [remote_timerFunc]
      cases ((machine env).run acts).pressed with
      | none => exact ⟨hmovement.iAngle, hmovement.iTargetPosition, hmovement.moves⟩
      | some key =>
        have hact : ((((machine env).run acts).afterMovement env answers).remote.act key).Steered
            (steering env acts + if key.steers then 1 else 0) := by
          cases hk : key.steers with
          | false => exact hmovement.act_of_not_steers hk
          | true => exact hmovement.act_of_steers hk
        exact ⟨hact.iAngle, hact.iTargetPosition, hact.moves⟩

/-! ### How far one can get -/

/-- The angle is 999 degrees and `n` presses of NEXT further, and nothing is under way. -/
structure Far (n : Nat) (g : Globals) : Prop where
  irQueue : g.irQueue = []
  tcpQueue : g.tcpQueue = []
  movementQueue : g.movementQueue = []
  oldCTaste : g.remote.oldCTaste = none
  iAngle : g.remote.iAngle = 999 + 15 * n
  iTargetPosition : g.remote.iTargetPosition = truncate (unitsPerDegree * reach n)

/-- A tick when no message and no movement is under way: the keys have it to themselves. -/
theorem remote_timerFunc_keys (env : Env) {g : Globals} (hm : g.tcpQueue = [])
    (hq : g.movementQueue = []) (answers : Answers) :
    (g.timerFunc env answers).movementQueue = [] ∧
      (g.timerFunc env answers).remote = { g.pressed.elim g.remote g.remote.act with
        szTxt2 := g.code
        cTaste := g.key
        oldCTaste := g.key } := by
  have hmessage : g.message = [] := by
    rw [Globals.message, hm]
    rfl
  have hmovement : g.afterMovement env answers = { g with irQueue := [], tcpQueue := [] } := by
    rw [afterMovement, afterMessage_of_nil env hmessage, processMovement, if_pos hq]
  refine ⟨?_, ?_⟩
  · show (g.afterMovement env answers).movementQueue = []
    rw [hmovement]
    exact hq
  · rw [remote_timerFunc, hmovement]

/-- A key that is pushed when no other is down, and the tick behind it. -/
theorem Far.press (env : Env) {n : Nat} {g : Globals} (h : Far n g) {s : Str} {key : Taste}
    (hkey : ∀ r : Remote, r.recognise s = some key) :
    ((machine env).runFrom g [.irPush s, .tick busy]).movementQueue = [] ∧
      ((machine env).runFrom g [.irPush s, .tick busy]).remote =
        { g.remote.act key with szTxt2 := s, cTaste := some key, oldCTaste := some key } ∧
      (machine env).countFrom steered g [.irPush s, .tick busy] = if key.steers then 1 else 0 := by
  have hpush : (step env g (.irPush s)).irQueue = [s] := by
    show g.irQueue ++ [s] = [s]
    rw [h.irQueue]
    rfl
  have hcode : (step env g (.irPush s)).code = s := by rw [Globals.code, hpush]; rfl
  have hrecognised : (step env g (.irPush s)).key = some key := by
    rw [Globals.key, hcode]
    exact hkey _
  have hpressed : (step env g (.irPush s)).pressed = some key := by
    rw [pressed_eq_some_iff]
    refine ⟨hrecognised, ?_⟩
    show g.remote.oldCTaste ≠ some key
    rw [h.oldCTaste]
    simp
  obtain ⟨hqueue, hremote⟩ := remote_timerFunc_keys env (g := step env g (.irPush s))
    h.tcpQueue h.movementQueue busy
  rw [hpressed, hrecognised, hcode] at hremote
  refine ⟨hqueue, hremote, ?_⟩
  rw [Machine.countFrom_cons, Machine.countFrom_cons, Machine.countFrom_nil]
  show 0 + (if (step env g (.irPush s)).pressed.any Taste.steers then 1 else 0) + 0 = _
  rw [hpressed, Option.any_some, Nat.zero_add, Nat.add_zero]

/-- The tick behind a release. -/
theorem release (env : Env) {g : Globals} (hir : g.irQueue = []) (htcp : g.tcpQueue = [])
    (hqueue : g.movementQueue = []) : (g.timerFunc env busy).movementQueue = [] ∧
      (g.timerFunc env busy).remote =
        { g.remote with szTxt2 := "xx".toList, cTaste := none, oldCTaste := none } ∧
      steered g (.tick busy) = false := by
  obtain ⟨hcode, hkey⟩ := key_eq_none hir
  have hpressed : g.pressed = none := by
    rw [Globals.pressed, hkey, ite_self]
  obtain ⟨hqueue', hremote⟩ := remote_timerFunc_keys env htcp hqueue busy
  rw [hpressed, hkey, hcode] at hremote
  refine ⟨hqueue', hremote, ?_⟩
  show g.pressed.any Taste.steers = false
  rw [hpressed]
  rfl

def nextRound : List Act := [.irPush "KEY_NEXT".toList, .tick busy] ++ [.tick busy]

theorem far_nextRound (env : Env) {n : Nat} {g : Globals} (h : Far n g) :
    Far (n + 1) ((machine env).runFrom g nextRound) ∧
      (machine env).countFrom steered g nextRound = 1 := by
  obtain ⟨hqueue, hremote, hcount⟩ := h.press env (s := "KEY_NEXT".toList) fun _ => rfl
  have hir : ((machine env).runFrom g [.irPush "KEY_NEXT".toList, .tick busy]).irQueue = [] :=
    timerFunc_irQueue env _ busy
  have htcp : ((machine env).runFrom g [.irPush "KEY_NEXT".toList, .tick busy]).tcpQueue = [] :=
    timerFunc_tcpQueue env _ busy
  rw [nextRound, Machine.runFrom_append, Machine.countFrom_append, hcount]
  generalize (machine env).runFrom g [.irPush "KEY_NEXT".toList, .tick busy] = g' at *
  obtain ⟨hqueue', hremote', hsteered⟩ := release env hir htcp hqueue
  have hangle : g'.remote.iAngle = g.remote.iAngle + 15 := by rw [hremote]; rfl
  have htarget : g'.remote.iTargetPosition = truncate (unitsPerDegree * g'.remote.iAngle) := by
    rw [hangle, hremote]
    exact Remote.calcTargetPosition_iTargetPosition { g.remote with iAngle := g.remote.iAngle + 15 }
  have hrun : (machine env).runFrom g' [.tick busy] = g'.timerFunc env busy := rfl
  rw [hrun, Machine.countFrom_cons, Machine.countFrom_nil, hsteered]
  refine ⟨⟨timerFunc_irQueue _ _ _, timerFunc_tcpQueue _ _ _, hqueue', ?_, ?_, ?_⟩, rfl⟩
  · rw [hremote']
  · rw [hremote']
    show g'.remote.iAngle = _
    rw [hangle, h.iAngle]
    push_cast
    ring
  · rw [hremote']
    show g'.remote.iTargetPosition = _
    rw [htarget, hangle, h.iAngle, reach]
    congr 1
    push_cast
    ring

def nextRounds (n : Nat) : List Act := (List.replicate n nextRound).flatten

theorem far_nextRounds (env : Env) {m : Nat} {g : Globals} (h : Far m g) (n : Nat) :
    Far (m + n) ((machine env).runFrom g (nextRounds n)) ∧
      (machine env).countFrom steered g (nextRounds n) = n := by
  induction n generalizing m g with
  | zero => exact ⟨h, rfl⟩
  | succ n ih =>
    obtain ⟨hfar, hcount⟩ := far_nextRound env h
    obtain ⟨hfar', hcount'⟩ := ih hfar
    have hrounds : nextRounds (n + 1) = nextRound ++ nextRounds n := rfl
    rw [hrounds, Machine.runFrom_append, Machine.countFrom_append, hcount, hcount']
    rw [Nat.add_right_comm] at hfar'
    exact ⟨hfar', Nat.add_comm 1 n⟩

/-- A rotation by 999 degrees, which the decoder accepts. -/
def farMessage : Str := "001010.00999.000010025009010".toList

/-- The first movement of a run is started at once. -/
theorem remote_firstMovement (env : Env) {msg : Str} (hmsg : msg ≠ []) :
    (((machine env).run [.tcpPush msg, .tick busy]).movementQueue = []) ∧
      ((machine env).run [.tcpPush msg, .tick busy]).remote =
        (Remote.init.startMovement (decodeHostData env.pow msg 0)).processInfrared "xx".toList := by
  let g : Globals := { Globals.init with tcpQueue := [msg] }
  have hi : Interpreted env { g with irQueue := [], tcpQueue := [] } msg (g.afterMessage env) :=
    afterMessage_of_ne_nil env (g := g) hmsg
  have hqueue : (g.afterMessage env).movementQueue = [0] := by
    rw [hi.movementQueue]
    split_ifs <;> rfl
  have hderef : (g.afterMessage env).heap.deref 0 = decodeHostData env.pow msg 0 := by
    rw [hi.heap]
    rfl
  have hremote : (g.afterMessage env).remote = Remote.init := hi.remote
  have hfirst : (g.afterMessage env).bIsFirstCall = true := hi.bIsFirstCall
  have hmovement : (g.afterMovement env busy).movementQueue = [] ∧
      (g.afterMovement env busy).remote =
        Remote.init.startMovement (decodeHostData env.pow msg 0) := by
    rw [afterMovement, ← hderef, ← hremote]
    rcases processMovement_cases (g := g.afterMessage env) busy.movementReached with
      ⟨hq, -⟩ | ⟨front, rest, hq, -, hp⟩ | ⟨front, rest, hq, -, -, -, hp⟩ | ⟨-, -, -, hf, -⟩
    · rw [hqueue] at hq
      exact absurd hq (by simp)
    · rw [hqueue] at hq
      obtain ⟨rfl, rfl⟩ := List.cons.inj hq
      rw [hp]
      exact ⟨rfl, rfl⟩
    · rw [hqueue] at hq
      obtain ⟨rfl, rfl⟩ := List.cons.inj hq
      rw [hp]
      exact ⟨rfl, rfl⟩
    · rw [hfirst] at hf
      exact absurd hf (by simp)
  have hrun : (machine env).run [.tcpPush msg, .tick busy] = g.timerFunc env busy := rfl
  rw [hrun]
  refine ⟨hmovement.1, ?_⟩
  show (g.afterMovement env busy).remote.processInfrared "xx".toList = _
  rw [hmovement.2]

theorem far_start (env : Env) : Far 0 ((machine env).run [.tcpPush farMessage, .tick busy]) ∧
    steering env [.tcpPush farMessage, .tick busy] = 0 := by
  obtain ⟨hqueue, hremote⟩ := remote_firstMovement env (show farMessage ≠ [] by decide)
  have hdecode : decodeHostData env.pow farMessage 0 =
      (valueFields farMessage).assign env.pow default :=
    decodeHostData_of_accepted (by decide +kernel)
  have hfields : (valueFields farMessage).motorDirection = 1 ∧
      (valueFields farMessage).angularDistance = 999 ∧
      (valueFields farMessage).angularDistanceDiv100 = 0 := by decide +kernel
  have hdirection : (decodeHostData env.pow farMessage 0).direction = 1 := by
    rw [hdecode]
    show toUnsigned 8 (valueFields farMessage).motorDirection = 1
    rw [hfields.1]
    rfl
  have hangle : (decodeHostData env.pow farMessage 0).angularDistance = 999 := by
    rw [hdecode]
    show 1 * ((valueFields farMessage).angularDistance : ℚ) +
      1 / 100 * (valueFields farMessage).angularDistanceDiv100 = 999
    rw [hfields.2.1, hfields.2.2]
    norm_num
  have hnext : nextAngle (decodeHostData env.pow farMessage 0) Remote.init.iAngle = 999 := by
    rw [nextAngle, if_pos hdirection, hangle]
    rfl
  rw [Remote.startMovement_of_ne_zero (by rw [hdirection]; decide), hnext,
    Remote.processInfrared_eq] at hremote
  refine ⟨⟨timerFunc_irQueue _ _ _, timerFunc_tcpQueue _ _ _, hqueue, ?_, ?_, ?_⟩, ?_⟩
  · rw [hremote]
    rfl
  · rw [hremote]
    rfl
  · have htarget := Remote.calcTargetPosition_iTargetPosition { Remote.init with iAngle := 999 }
    rw [hremote]
    refine Eq.trans htarget ?_
    rw [reach]
    norm_num
  · rfl

/-- `n` presses of NEXT behind a rotation by 999 degrees, and then PLAY. -/
def farActs (n : Nat) : List Act :=
  [.tcpPush farMessage, .tick busy] ++ nextRounds n ++ [.irPush "KEY_PLAY".toList, .tick busy]

theorem farActs_moves (env : Env) (n : Nat) : steering env (farActs n) = n ∧
    .move (truncate (unitsPerDegree * reach n)) ∈ ((machine env).run (farActs n)).remote.calls := by
  obtain ⟨hstart, hpresses⟩ := far_start env
  obtain ⟨hfar, hcount⟩ := far_nextRounds env hstart n
  rw [zero_add] at hfar
  obtain ⟨-, hremote, hplay⟩ := hfar.press env (s := "KEY_PLAY".toList) fun _ => rfl
  refine ⟨?_, ?_⟩
  · rw [farActs, List.append_assoc, steering, Machine.countFrom_append, Machine.countFrom_append]
    exact congrArg₂ (· + ·) hpresses (congrArg₂ (· + ·) hcount hplay) |>.trans (Nat.zero_add n)
  · rw [farActs, List.append_assoc, Machine.run_append, Machine.runFrom_append, hremote,
      ← hfar.iTargetPosition]
    show _ ∈ (Remote.act _ .play).calls
    rw [Remote.act_calls]
    exact List.mem_append_right _ (by simp [Remote.actCalls])

/-- Every target the motor was told to move to fits an `int`. -/
def MovesFit (g : Globals) : Prop :=
  ∀ target : Int, .move target ∈ g.remote.calls → -2 ^ 31 ≤ target ∧ target < 2 ^ 31

/-- **10300 presses of NEXT, PREVIOUS and `>10` are the most that can never overflow a
target**: with so many every target the motor is ever told fits an `int`, whatever the
messages ask for, and one more press can get out of it. -/
theorem moves_fit_iff (env : Env) (n : Nat) :
    (∀ acts, steering env acts ≤ n → MovesFit ((machine env).run acts)) ↔ n ≤ 10300 := by
  have hunits : unitsPerDegree * reach 10300 < 2 ^ 31 ∧ 2 ^ 31 ≤ unitsPerDegree * reach 10301 := by
    rw [unitsPerDegree, railperi, wheelperi, reach, reach]
    norm_num
  constructor
  · intro h
    by_contra hn
    obtain ⟨hpresses, hmove⟩ := farActs_moves env 10301
    have hfits := (h (farActs 10301) (by omega) _ hmove).2
    have hpos : (0 : ℚ) ≤ unitsPerDegree * reach 10301 := by linarith [hunits.2]
    rw [truncate_of_nonneg hpos, Int.floor_lt] at hfits
    push_cast at hfits
    linarith [hunits.2]
  · intro hn acts hpresses target ht
    have hreach := mul_le_mul_of_nonneg_left (reach_le (hpresses.trans hn)) unitsPerDegree_pos.le
    have hle := ((steered_run acts).moves target ht).trans hreach
    have hlt := abs_lt.mp (hle.trans_lt hunits.1)
    exact ⟨by exact_mod_cast hlt.1.le, by exact_mod_cast hlt.2⟩

end Orbiter.Main
