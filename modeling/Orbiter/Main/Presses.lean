import Orbiter.Main.Keys

/-!
# Presses of the remote control

lirc delivers a press as one code line, and as repeats of it as long as the key is held.
A tick keeps the last line that waits, and acts unless the tick before ended with the same
key; a tick without a line forgets that key.

* `presses`: the loop with the presses behind its code lines, and what they triggered.
* `pressesSimulation`: the loop in it is the machine of all pushes and ticks.
* `oncePerPress_iff`: **every press triggers its action once exactly when no tick finds two
  presses, and each tick acts on a press that begins and on no other.**
-/

namespace Orbiter.Main

open Cxx Toolbox Stimuli Globals

/-- A code line of lirc: the code in hex, the repeat count, the button and the remote. -/
structure CodeLine where
  code : Str
  repeats : Str
  button : Str
  remote : Str
  deriving DecidableEq

def CodeLine.text (line : CodeLine) : Str :=
  line.code ++ ' ' :: line.repeats ++ ' ' :: line.button ++ ' ' :: line.remote ++ ['\n']

def action (button : Str) : Option Taste :=
  (keyNames.lookup button).join.filter Taste.hasAction

/-- A line that waits: the number of its press, and whether it is the first one. -/
structure Code where
  press : Nat
  first : Bool
  line : CodeLine
  deriving DecidableEq

/-- The loop, the buttons pressed so far, the lines that wait, and for every action so far
the press whose line the tick looked at. -/
structure Presses where
  globals : Globals
  buttons : List Str
  waiting : List Code
  triggered : List (Nat × Taste)

/-- A press begins, the last press is repeated, a message arrives, or a tick. -/
inductive PressAct
  | press (line : CodeLine)
  | again (code repeats remote : Str)
  | tcpPush (msg : Str)
  | tick (answers : Answers)
  deriving DecidableEq

namespace Presses

variable (env : Env) (s : Presses)

def arrive (c : Code) : Presses :=
  { s with
    globals := Main.step env s.globals (.irPush c.line.text)
    waiting := s.waiting ++ [c] }

/-- What the next tick triggers, for the press whose line it looks at. -/
def trigger : Option (Nat × Taste) :=
  s.waiting.getLast?.bind fun c => s.globals.pressed.map fun key => (c.press, key)

def step : PressAct → Presses
  | .press line =>
    { s.arrive env ⟨s.buttons.length, true, line⟩ with buttons := s.buttons ++ [line.button] }
  | .again code repeats remote =>
    match s.buttons.getLast? with
    | some button => s.arrive env ⟨s.buttons.length - 1, false, ⟨code, repeats, button, remote⟩⟩
    | none => s
  | .tcpPush msg => { s with globals := Main.step env s.globals (.tcpPush msg) }
  | .tick answers =>
    { s with
      globals := Main.step env s.globals (.tick answers)
      waiting := []
      triggered := s.triggered ++ s.trigger.toList }

def actionOf (p : Nat) : Option Taste := s.buttons[p]?.bind action

/-- The first line of a press waits. -/
def Begins (p : Nat) : Prop := ∃ c ∈ s.waiting, c.press = p ∧ c.first = true

instance (p : Nat) : Decidable (s.Begins p) := by unfold Begins; infer_instance

/-- **Every press with an action has triggered it exactly once**, or it has not when its
first line still waits. -/
def OncePerPress : Prop :=
  ∀ p key, s.actionOf p = some key → s.triggered.count (p, key) = if s.Begins p then 0 else 1

end Presses

/-- The loop under all interleavings of presses, repeats, messages and ticks. -/
def presses (env : Env) : Machine Presses PressAct where
  init := ⟨Globals.init, [], [], []⟩
  step s := s.step env

namespace Presses

variable {env : Env} {s : Presses}

def pressWord (s : Presses) : PressAct → List Act
  | .press line => [.irPush line.text]
  | .again code repeats remote =>
    match s.buttons.getLast? with
    | some button => [.irPush (CodeLine.text ⟨code, repeats, button, remote⟩)]
    | none => []
  | .tcpPush msg => [.tcpPush msg]
  | .tick answers => [.tick answers]

/-- **The loop in it is the machine of all pushes and ticks.** -/
def pressesSimulation (env : Env) : Machine.Simulation (presses env) (machine env) where
  rel s g := s.globals = g
  word := pressWord
  init := rfl
  step := by
    rintro s g a - rfl
    cases a with
    | press line => rfl
    | again code repeats remote =>
      simp only [presses, step, pressWord]
      cases s.buttons.getLast? <;> rfl
    | tcpPush msg => rfl
    | tick answers => rfl

/-- What holds between the presses and the loop. -/
structure Consistent (s : Presses) : Prop where
  irQueue : s.globals.irQueue = s.waiting.map fun c => c.line.text
  waiting : ∀ c ∈ s.waiting, c.press < s.buttons.length
  triggered : ∀ x ∈ s.triggered, x.1 < s.buttons.length

/-- The last line that waits is the one a tick looks at. -/
theorem Consistent.code (h : s.Consistent) {c : Code} (hc : s.waiting.getLast? = some c) :
    s.globals.code = c.line.text := by
  obtain ⟨cs, hcs⟩ := List.getLast?_eq_some_iff.mp hc
  rw [Globals.code, h.irQueue, hcs, List.map_append, List.map_singleton, drain_concat]

theorem consistent_arrive (h : s.Consistent) {c : Code} (hc : c.press < s.buttons.length) :
    (s.arrive env c).Consistent := by
  refine ⟨?_, ?_, h.triggered⟩
  · show s.globals.irQueue ++ [c.line.text] = _
    rw [h.irQueue, arrive, List.map_append, List.map_singleton]
  · intro c' hc'
    rcases List.mem_append.mp hc' with hc' | hc'
    · exact h.waiting c' hc'
    · rwa [List.mem_singleton.mp hc']

/-- What a tick triggers belongs to the last press that waits. -/
theorem trigger_eq_some_iff {x : Nat × Taste} : s.trigger = some x ↔
    ∃ c, s.waiting.getLast? = some c ∧ c.press = x.1 ∧ s.globals.pressed = some x.2 := by
  obtain ⟨p, key⟩ := x
  simp only [trigger, Option.bind_eq_some_iff, Option.map_eq_some_iff, Prod.mk.injEq]
  constructor
  · rintro ⟨c, hc, key', hkey, hp, rfl⟩
    exact ⟨c, hc, hp, hkey⟩
  · rintro ⟨c, hc, hp, hkey⟩
    exact ⟨c, hc, key, hkey, hp, rfl⟩

theorem consistent_press (h : s.Consistent) (line : CodeLine) :
    (s.step env (.press line)).Consistent := by
  have hlt : ∀ {p : Nat}, p < s.buttons.length → p < (s.buttons ++ [line.button]).length := by
    intro p hp
    rw [List.length_append]
    omega
  refine ⟨?_, ?_, fun x hx => hlt (h.triggered x hx)⟩
  · show s.globals.irQueue ++ [line.text] = (s.waiting ++ [_]).map _
    rw [h.irQueue, List.map_append, List.map_singleton]
  · intro c hc
    rcases List.mem_append.mp hc with hc | hc
    · exact hlt (h.waiting c hc)
    · rw [List.mem_singleton.mp hc]
      show s.buttons.length < (s.buttons ++ [line.button]).length
      rw [List.length_append]
      exact Nat.lt_succ_self _

theorem consistent_reachable (env : Env) : (presses env).Invariant Consistent where
  init := ⟨rfl, nofun, nofun⟩
  step := by
    intro s a _ h
    cases a with
    | press line => exact consistent_press h line
    | again code repeats remote =>
      simp only [presses, step]
      cases hlast : s.buttons.getLast? with
      | none => exact h
      | some button =>
        have hne : s.buttons ≠ [] := by
          rintro hnil
          rw [hnil] at hlast
          exact absurd hlast (by simp)
        have hpos := List.length_pos_of_ne_nil hne
        exact consistent_arrive h (show s.buttons.length - 1 < s.buttons.length by omega)
    | tcpPush msg => exact ⟨h.irQueue, h.waiting, h.triggered⟩
    | tick answers =>
      refine ⟨timerFunc_irQueue env s.globals answers, nofun, ?_⟩
      intro x hx
      rcases List.mem_append.mp hx with hx | hx
      · exact h.triggered x hx
      · obtain ⟨c, hc, hpress, -⟩ := trigger_eq_some_iff.mp (Option.mem_toList.mp hx)
        rw [← hpress]
        exact h.waiting c (List.mem_of_getLast? hc)

/-! ### Once for every press -/

/-- The tick finds no press with an action but that of the last line; and if that has one,
it begins in this tick exactly when the tick recognises its key and the tick before ended
with another one. -/
def TakesPress (s : Presses) : PressAct → Prop
  | .tick _ => ∀ c, s.waiting.getLast? = some c →
    (∀ p key, s.actionOf p = some key → s.Begins p → p = c.press) ∧
    ∀ key, s.actionOf c.press = some key →
      (s.Begins c.press ↔ s.globals.remote.recognise c.line.text = some key ∧
        s.globals.remote.oldCTaste ≠ some key)
  | _ => True

theorem Consistent.trigger_iff (h : s.Consistent) {c : Code} (hc : s.waiting.getLast? = some c)
    (p : Nat) (key : Taste) : s.trigger = some (p, key) ↔
      p = c.press ∧ s.globals.remote.recognise c.line.text = some key ∧
        s.globals.remote.oldCTaste ≠ some key := by
  have hpressed : s.globals.pressed = some key ↔
      s.globals.remote.recognise c.line.text = some key ∧
        s.globals.remote.oldCTaste ≠ some key := by
    rw [pressed_eq_some_iff, Globals.key, h.code hc]
  rw [trigger_eq_some_iff, hpressed]
  constructor
  · rintro ⟨c', hc', hp, hkey⟩
    rw [hc] at hc'
    exact ⟨by rw [Option.some.inj hc', hp], hkey⟩
  · rintro ⟨rfl, hkey⟩
    exact ⟨c, hc, rfl, hkey⟩

/-- A tick keeps the law when it triggers the action of the presses that begin, and of no
other. -/
theorem oncePerPress_tick (h : s.OncePerPress) (answers : Answers) :
    (s.step env (.tick answers)).OncePerPress ↔
      ∀ p key, s.actionOf p = some key → (s.Begins p ↔ s.trigger = some (p, key)) := by
  have hcount : ∀ p key, (s.triggered ++ s.trigger.toList).count (p, key) =
      s.triggered.count (p, key) + if s.trigger = some (p, key) then 1 else 0 := by
    intro p key
    rw [List.count_append]
    cases s.trigger with
    | none => simp
    | some x => simp [List.count_singleton]
  have hnone : ∀ p, ¬ (s.step env (.tick answers)).Begins p := by
    rintro p ⟨c, hc, -⟩
    exact absurd hc (by simp [step])
  refine forall_congr' fun p => forall_congr' fun key => imp_congr_right fun hkey => ?_
  rw [if_neg (hnone p)]
  show (s.triggered ++ s.trigger.toList).count (p, key) = 1 ↔ _
  rw [hcount, h p key hkey]
  split_ifs <;> simp_all

/-- **A tick keeps the law exactly when it takes the press that begins.** -/
theorem oncePerPress_tick_iff (hs : s.Consistent) (h : s.OncePerPress) (answers : Answers) :
    (s.step env (.tick answers)).OncePerPress ↔ s.TakesPress (.tick answers) := by
  rw [oncePerPress_tick h, TakesPress]
  cases hc : s.waiting.getLast? with
  | none =>
    have hnil : s.waiting = [] := List.getLast?_eq_none_iff.mp hc
    have hnone : ∀ p, ¬ s.Begins p := by
      rintro p ⟨c, hmem, -⟩
      rw [hnil] at hmem
      exact absurd hmem (by simp)
    refine iff_of_true (fun p key _ => iff_of_false (hnone p) ?_) nofun
    rw [trigger, hc, Option.bind_none]
    simp
  | some c =>
    simp only [hs.trigger_iff hc, Option.some.injEq, forall_eq']
    constructor
    · intro hall
      refine ⟨fun p key hkey hbegins => ((hall p key hkey).mp hbegins).1, ?_⟩
      intro key hkey
      exact (hall c.press key hkey).trans (and_iff_right rfl)
    · rintro ⟨hother, hlast⟩ p key hkey
      by_cases hp : p = c.press
      · subst hp
        exact (hlast key hkey).trans (and_iff_right rfl).symm
      · exact iff_of_false (fun hbegins => hp (hother p key hkey hbegins)) fun h => hp h.1

theorem begins_press_iff (line : CodeLine) (p : Nat) :
    (s.step env (.press line)).Begins p ↔ s.Begins p ∨ p = s.buttons.length := by
  constructor
  · rintro ⟨c, hc, hp, hfirst⟩
    rcases List.mem_append.mp hc with hc | hc
    · exact Or.inl ⟨c, hc, hp, hfirst⟩
    · right
      rw [← hp, List.mem_singleton.mp hc]
  · rintro (⟨c, hc, hbegins⟩ | rfl)
    · exact ⟨c, List.mem_append_left _ hc, hbegins⟩
    · exact ⟨_, List.mem_append_right _ List.mem_cons_self, rfl, rfl⟩

theorem OncePerPress.press (h : s.OncePerPress) (hs : s.Consistent) (line : CodeLine) :
    (s.step env (.press line)).OncePerPress := by
  intro p key hkey
  have hbegins : (s.step env (.press line)).Begins p ↔ s.Begins p ∨ p = s.buttons.length :=
    begins_press_iff line p
  have haction : (s.step env (.press line)).actionOf p =
      (s.buttons ++ [line.button])[p]?.bind action := rfl
  show s.triggered.count (p, key) = _
  rcases lt_trichotomy p s.buttons.length with hlt | heq | hgt
  · have hsame : s.actionOf p = some key := by
      rw [← hkey, haction, List.getElem?_append_left hlt, actionOf]
    rw [h p key hsame, if_congr (hbegins.trans (or_iff_left (Nat.ne_of_lt hlt))) rfl rfl]
  · rw [if_pos (hbegins.mpr (Or.inr heq)), List.count_eq_zero]
    intro hmem
    exact absurd (hs.triggered _ hmem) (by simp [heq])
  · have hge : (s.buttons ++ [line.button]).length ≤ p := by
      rw [List.length_append]
      exact hgt
    rw [haction, List.getElem?_eq_none hge] at hkey
    exact absurd hkey (by simp)

theorem OncePerPress.again (h : s.OncePerPress) (code repeats remote : Str) :
    (s.step env (.again code repeats remote)).OncePerPress := by
  rw [step]
  cases s.buttons.getLast? with
  | none => exact h
  | some button =>
    intro p key hkey
    have hbegins : ∀ c : Code, c.first = false → ((s.arrive env c).Begins p ↔ s.Begins p) := by
      intro c hc
      simp [Begins, arrive, or_and_right, exists_or, hc]
    rw [if_congr (hbegins _ rfl) rfl rfl]
    exact h p key hkey

/-- **Every press triggers its action once exactly when no tick finds two presses, and each
tick acts on a press that begins and on no other.** -/
theorem oncePerPress_iff (env : Env) (acts : List PressAct) :
    (presses env).Always (fun s a => (s.step env a).OncePerPress) acts ↔
      ∀ x ∈ (presses env).steps acts, x.1.TakesPress x.2 := by
  refine Machine.always_step_iff_steps (m := presses env) (I := OncePerPress) ?_ ?_ acts
  · intro p key hkey
    exact absurd hkey (by simp [presses, actionOf])
  · intro s a hs h
    have hconsistent := (consistent_reachable env).of_reachable hs
    cases a with
    | press line => exact iff_of_true (h.press hconsistent line) trivial
    | again code repeats remote => exact iff_of_true (h.again code repeats remote) trivial
    | tcpPush msg => exact iff_of_true h trivial
    | tick answers => exact oncePerPress_tick_iff hconsistent h answers

end Presses

/-- A key of the remote control, as lirc writes its line. -/
def pressOf (button : String) : PressAct :=
  .press ⟨"0000000000000001".toList, "00".toList, button.toList, "SONY".toList⟩

/-- Two keys between two ticks: only the second one acts. -/
theorem press_lost : ¬ ∀ acts : List PressAct,
    (presses oneSecond).Always (fun s a => (s.step oneSecond a).OncePerPress) acts := by
  intro h
  have hlast := h [pressOf "KEY_1", pressOf "KEY_2", .tick arrived]
  have hone := hlast _ (List.mem_of_getLast? rfl) 0 .key1 (by decide +kernel)
  exact absurd hone (by decide +kernel)

end Orbiter.Main
