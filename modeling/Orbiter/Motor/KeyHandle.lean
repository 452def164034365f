import Orbiter.Motor.CMaxonMotor

/-!
# The handle of the motor

Which handles are open is read off the calls and their replies.

* `Secure`: only open handles have been used, and the motor holds one.
* `safe_iff_steps`: **the handle is used only while open exactly when every operation
  finds it open and every initialisation opens it again.**
* `safe_iff_nil`: from the constructor on, the first operation already uses a handle
  that was never opened.
-/

namespace Orbiter.Motor

def Vcs.keyHandle : Vcs → Option KeyHandle
  | .openDevice _ _ _ _ => none
  | .closeAllDevices => none
  | .closeDevice h => some h
  | .setProtocolStackSettings h _ _ => some h
  | .getFaultState h _ => some h
  | .clearFault h _ => some h
  | .getEnableState h _ => some h
  | .setEnableState h _ => some h
  | .setDisableState h _ => some h
  | .resetPositionMarkerCounter h _ => some h
  | .setMaxFollowingError h _ _ => some h
  | .getPositionProfile h _ => some h
  | .setPositionProfile h _ _ _ _ => some h
  | .getDcMotorParameter h _ => some h
  | .setDcMotorParameter h _ _ _ _ => some h
  | .activateProfilePositionMode h _ => some h
  | .getPositionIs h _ => some h
  | .moveToPosition h _ _ _ _ => some h
  | .haltPositionMovement h _ => some h
  | .getMovementState h _ => some h
  | .getNbOfDeviceError h _ => some h
  | .getCurrentIs h _ => some h
  | .getAnalogInput h _ _ => some h

/-- A handle is open once it has been returned, until it is passed to
`VCS_CloseDevice`. -/
def opened (open_ : List KeyHandle) : Vcs × Reply → List KeyHandle
  | (.openDevice _ _ _ _, reply) => reply.keyHandle :: open_
  | (.closeDevice h, _) => open_.filter (· ≠ h)
  | _ => open_

def handles : Machine (List KeyHandle) (Vcs × Reply) where
  init := []
  step := opened

/-- The call takes an open handle, if it takes one. -/
def UsesOpen (open_ : List KeyHandle) (x : Vcs × Reply) : Prop :=
  ∀ h, x.1.keyHandle = some h → h ≠ 0 ∧ h ∈ open_

instance (open_ : List KeyHandle) (x : Vcs × Reply) : Decidable (UsesOpen open_ x) :=
  decidable_of_iff (x.1.keyHandle.all fun h => h ≠ 0 ∧ h ∈ open_) (by
    cases h : x.1.keyHandle <;> simp [UsesOpen, h])

/-- The call takes the handle, and opens and closes nothing. -/
def Vcs.Uses (c : Vcs) (h : KeyHandle) : Prop :=
  c.keyHandle = some h ∧ ∀ open_ reply, opened open_ (c, reply) = open_

namespace CMaxonMotor

variable (epos : Epos) (m : CMaxonMotor)

def Safe : Prop := handles.Always UsesOpen m.calls

def Held : Prop := m.keyHandle ≠ 0 ∧ m.keyHandle ∈ handles.run m.calls

/-- Only open handles have been used, and the motor holds one. -/
structure Secure : Prop where
  safe : m.Safe
  held : m.Held

/-! ### One call -/

variable {epos m}

theorem safe_call {c : Vcs} : (m.call epos c).Safe ↔
    m.Safe ∧ ∀ h, c.keyHandle = some h → h ≠ 0 ∧ h ∈ handles.run m.calls := by
  refine Machine.always_append.trans (and_congr_right' ?_)
  rw [Machine.alwaysFrom_cons]
  exact and_iff_left (Machine.alwaysFrom_nil _)

theorem run_call (c : Vcs) : handles.run (m.call epos c).calls =
    opened (handles.run m.calls) (c, m.reply epos) := Machine.run_concat _ _ _

/-- A call on the handle of the motor is safe exactly when that is open. -/
theorem safe_call_own {c : Vcs} (hc : c.keyHandle = some m.keyHandle) :
    (m.call epos c).Safe ↔ m.Secure := by
  rw [safe_call]
  constructor
  · exact fun h => ⟨h.1, h.2 _ hc⟩
  · intro h
    refine ⟨h.safe, fun x hx => ?_⟩
    rw [← Option.some.inj (hc.symm.trans hx)]
    exact h.held

theorem Secure.call (h : m.Secure) (epos : Epos) {c : Vcs} (hc : c.Uses m.keyHandle) :
    (m.call epos c).Secure := by
  refine ⟨(safe_call_own hc.1).mpr h, h.held.1, ?_⟩
  rw [run_call, hc.2]
  exact h.held.2

theorem Secure.callWithErrorCode (h : m.Secure) (epos : Epos) {c : Vcs}
    (hc : c.Uses m.keyHandle) : (m.callWithErrorCode epos c).Secure := by
  obtain ⟨hsafe, hheld⟩ := h.call epos hc
  exact ⟨hsafe, hheld⟩

/-! ### The methods of a motor with an open handle -/

variable (epos)

theorem Secure.clearFault (h : m.Secure) : (m.clearFault epos).2.Secure := by
  have hfault := h.call epos (c := .getFaultState m.keyHandle m.nodeID) ⟨rfl, fun _ _ => rfl⟩
  simp only [CMaxonMotor.clearFault]
  split_ifs
  · exact hfault
  · exact hfault.call epos ⟨rfl, fun _ _ => rfl⟩
  · exact hfault

theorem keyHandle_clearFault (m : CMaxonMotor) :
    (m.clearFault epos).2.keyHandle = m.keyHandle := by
  simp only [CMaxonMotor.clearFault]
  split_ifs <;> rfl

theorem Secure.switchDevice (h : m.Secure) (enable : Bool) {setState : Vcs}
    (hset : setState.Uses m.keyHandle) : (m.switchDevice epos enable setState).Secure := by
  have hclear := h.clearFault epos
  have hkey := keyHandle_clearFault epos m
  simp only [CMaxonMotor.switchDevice]
  generalize m.clearFault epos = cleared at hclear hkey
  obtain ⟨failed, m'⟩ := cleared
  simp only at hclear hkey ⊢
  have hstate := hclear.call epos (c := .getEnableState m'.keyHandle m'.nodeID)
    ⟨rfl, fun _ _ => rfl⟩
  split_ifs
  · exact hclear
  · rw [← hkey] at hset
    exact hstate.call epos hset
  · exact hstate

theorem Secure.disableDevice (h : m.Secure) : (m.disableDevice epos).Secure :=
  h.switchDevice epos false ⟨rfl, fun _ _ => rfl⟩

theorem Secure.enableDevice (h : m.Secure) : (m.enableDevice epos).Secure :=
  h.switchDevice epos true ⟨rfl, fun _ _ => rfl⟩

theorem Secure.setPosModeParameter (h : m.Secure) : (m.setPosModeParameter epos).Secure := by
  simp only [CMaxonMotor.setPosModeParameter]
  refine callWithErrorCode ?_ epos ⟨rfl, fun _ _ => rfl⟩
  refine callWithErrorCode ?_ epos ⟨rfl, fun _ _ => rfl⟩
  refine callWithErrorCode ?_ epos ⟨rfl, fun _ _ => rfl⟩
  refine callWithErrorCode ?_ epos ⟨rfl, fun _ _ => rfl⟩
  exact h.callWithErrorCode epos ⟨rfl, fun _ _ => rfl⟩

theorem Secure.move (h : m.Secure) (targetPosition : Int) :
    (m.move epos targetPosition).Secure := by
  have hmode := h.call epos (c := .activateProfilePositionMode m.keyHandle m.nodeID)
    ⟨rfl, fun _ _ => rfl⟩
  simp only [CMaxonMotor.move, CMaxonMotor.getCurrentPosition]
  split_ifs
  · have hread := hmode.call epos (c := .getPositionIs m.keyHandle m.nodeID)
      ⟨rfl, fun _ _ => rfl⟩
    have hmoved := hread.call epos (c := .moveToPosition m.keyHandle m.nodeID targetPosition
      false true) ⟨rfl, fun _ _ => rfl⟩
    exact hmoved.call epos ⟨rfl, fun _ _ => rfl⟩
  · exact hmode.call epos ⟨rfl, fun _ _ => rfl⟩

theorem Secure.setSpeed (h : m.Secure) (speed : ℚ) : (m.setSpeed epos speed).Secure := by
  have hget := h.callWithErrorCode epos (c := .getPositionProfile m.keyHandle m.nodeID)
    ⟨rfl, fun _ _ => rfl⟩
  simp only [CMaxonMotor.setSpeed]
  refine call ?_ epos ⟨rfl, fun _ _ => rfl⟩
  exact hget.callWithErrorCode epos ⟨rfl, fun _ _ => rfl⟩

theorem Secure.getSupply (h : m.Secure) : (m.getSupply epos).2.Secure := by
  have hcurrent := h.callWithErrorCode epos (c := .getCurrentIs m.keyHandle m.nodeID)
    ⟨rfl, fun _ _ => rfl⟩
  simp only [CMaxonMotor.getSupply]
  exact hcurrent.callWithErrorCode epos ⟨rfl, fun _ _ => rfl⟩

/-! ### Closing and opening -/

theorem keyHandle_disableDevice (m : CMaxonMotor) :
    (m.disableDevice epos).keyHandle = m.keyHandle := by
  have hkey := keyHandle_clearFault epos m
  simp only [CMaxonMotor.disableDevice, CMaxonMotor.switchDevice]
  generalize m.clearFault epos = cleared at hkey
  obtain ⟨failed, m'⟩ := cleared
  simp only at hkey ⊢
  split_ifs <;> exact hkey

theorem keyHandle_closeDevice (m : CMaxonMotor) :
    (m.closeDevice epos).keyHandle = m.keyHandle := by
  have hkey := keyHandle_disableDevice epos m
  simp only [CMaxonMotor.closeDevice]
  split_ifs <;> exact hkey

/-- An open handle is closed without a fault of its own. -/
theorem Secure.closeDevice (h : m.Secure) : (m.closeDevice epos).Safe := by
  have hdisable := h.disableDevice epos
  simp only [CMaxonMotor.closeDevice]
  rw [if_pos hdisable.held.1]
  exact safe_call.mpr ⟨(safe_call_own rfl).mpr hdisable, nofun⟩

/-- **Behind `closeDevice` the motor holds no open handle**, but still holds one. -/
theorem not_held_closeDevice (m : CMaxonMotor) : ¬ (m.closeDevice epos).Held := by
  intro hheld
  obtain ⟨hne, hmem⟩ := hheld
  rw [keyHandle_closeDevice] at hne hmem
  simp only [CMaxonMotor.closeDevice] at hmem
  rw [run_call, if_pos (by rwa [keyHandle_disableDevice]), run_call,
    keyHandle_disableDevice] at hmem
  simp [opened] at hmem

theorem Safe.openDevice (h : m.Safe) : (m.openDevice epos).Safe := safe_call.mpr ⟨h, nofun⟩

theorem held_openDevice : (m.openDevice epos).Held ↔ (m.reply epos).keyHandle ≠ 0 := by
  refine and_iff_left ?_
  show (m.reply epos).keyHandle ∈ handles.run (m.call epos _).calls
  rw [run_call]
  exact List.mem_cons_self

def Reopens (epos : Epos) (m : CMaxonMotor) : Prop :=
  ((m.closeDevice epos).reply epos).keyHandle ≠ 0 ∧
    (((m.closeDevice epos).openDevice epos).reply epos).ok = true

theorem Secure.initializeDevice (h : m.Secure) (hr : Reopens epos m) :
    (m.initializeDevice epos).Secure := by
  obtain ⟨hopen, hsettings⟩ := hr
  have hopened : ((m.closeDevice epos).openDevice epos).Secure :=
    ⟨Safe.openDevice epos (h.closeDevice epos), (held_openDevice epos).mpr hopen⟩
  have hset := hopened.call epos (c := .setProtocolStackSettings _ 1000000 500)
    ⟨rfl, fun _ _ => rfl⟩
  have hactive : ((m.closeDevice epos).activateDevice epos).Secure := by
    simp only [CMaxonMotor.activateDevice]
    rw [if_pos hsettings]
    exact (hset.enableDevice epos).call epos ⟨rfl, fun _ _ => rfl⟩
  exact hactive.setPosModeParameter epos

/-! ### The first call of each method -/

/-- The calls went on with one on the handle of the motor. -/
def Starts (m m' : CMaxonMotor) : Prop :=
  ∃ c, c.Uses m.keyHandle ∧ (m.call epos c).calls <+: m'.calls

variable {epos}

/-- What goes on with a call on the handle is safe only if that is open. -/
theorem Starts.secure {m' : CMaxonMotor} (h : Starts epos m m') (hsafe : m'.Safe) : m.Secure := by
  obtain ⟨c, hc, hp⟩ := h
  exact (safe_call_own hc.1).mp (Machine.Always.of_prefix hsafe hp)

theorem Starts.trans {m' m'' : CMaxonMotor} (h : Starts epos m m')
    (hp : m'.calls <+: m''.calls) : Starts epos m m'' := by
  obtain ⟨c, hc, hp'⟩ := h
  exact ⟨c, hc, hp'.trans hp⟩

theorem Starts.calls {m' : CMaxonMotor} (h : Starts epos m m') : m.calls <+: m'.calls := by
  obtain ⟨c, -, hp⟩ := h
  exact (List.prefix_append _ _).trans hp

theorem starts_call {c : Vcs} (hc : c.Uses m.keyHandle) : Starts epos m (m.call epos c) :=
  ⟨c, hc, List.prefix_rfl⟩

theorem starts_callWithErrorCode {c : Vcs} (hc : c.Uses m.keyHandle) :
    Starts epos m (m.callWithErrorCode epos c) := ⟨c, hc, List.prefix_rfl⟩

variable (epos m)

theorem prefix_call (c : Vcs) : m.calls <+: (m.call epos c).calls := List.prefix_append _ _

theorem prefix_callWithErrorCode (c : Vcs) : m.calls <+: (m.callWithErrorCode epos c).calls :=
  List.prefix_append _ _

theorem starts_clearFault : Starts epos m (m.clearFault epos).2 := by
  have hfault : Starts epos m (m.call epos (.getFaultState m.keyHandle m.nodeID)) :=
    starts_call ⟨rfl, fun _ _ => rfl⟩
  simp only [clearFault]
  split_ifs
  · exact hfault
  · exact hfault.trans (prefix_call epos _ _)
  · exact hfault

theorem starts_switchDevice (enable : Bool) (setState : Vcs) :
    Starts epos m (m.switchDevice epos enable setState) := by
  have hclear := starts_clearFault epos m
  simp only [switchDevice]
  split_ifs
  · exact hclear
  · exact (hclear.trans (prefix_call epos _ _)).trans (prefix_call epos _ _)
  · exact hclear.trans (prefix_call epos _ _)

theorem starts_closeDevice : Starts epos m (m.closeDevice epos) := by
  have hdisable : Starts epos m (m.disableDevice epos) := starts_switchDevice epos m false _
  simp only [closeDevice]
  refine Starts.trans ?_ (prefix_call epos _ _)
  split_ifs
  · exact hdisable.trans (prefix_call epos _ _)
  · exact hdisable

theorem starts_setPosModeParameter : Starts epos m (m.setPosModeParameter epos) := by
  simp only [setPosModeParameter]
  refine Starts.trans ?_ (prefix_callWithErrorCode epos _ _)
  refine Starts.trans ?_ (prefix_callWithErrorCode epos _ _)
  refine Starts.trans ?_ (prefix_callWithErrorCode epos _ _)
  refine Starts.trans ?_ (prefix_callWithErrorCode epos _ _)
  exact starts_callWithErrorCode ⟨rfl, fun _ _ => rfl⟩

theorem prefix_activateDevice : ((m.openDevice epos).call epos
    (.setProtocolStackSettings (m.openDevice epos).keyHandle 1000000 500)).calls <+:
      (m.activateDevice epos).calls := by
  simp only [activateDevice]
  refine List.IsPrefix.trans ?_ (prefix_call epos _ _)
  refine List.IsPrefix.trans ?_ (starts_switchDevice epos _ true _).calls
  split_ifs
  · exact List.prefix_rfl
  · exact (starts_closeDevice epos _).calls

theorem starts_initializeDevice : Starts epos m (m.initializeDevice epos) := by
  refine Starts.trans ?_ (starts_setPosModeParameter epos _).calls
  refine (starts_closeDevice epos m).trans ?_
  refine List.IsPrefix.trans ?_ (prefix_activateDevice epos _)
  exact (prefix_call epos _ _).trans (prefix_call epos _ _)

/-- An initialisation that uses open handles only has opened the device again. -/
theorem reopens_of_safe (h : (m.initializeDevice epos).Safe) : Reopens epos m := by
  have hactive : ((m.closeDevice epos).activateDevice epos).Safe :=
    Machine.Always.of_prefix h (starts_setPosModeParameter epos _).calls
  have hset : (((m.closeDevice epos).openDevice epos).call epos (.setProtocolStackSettings
      ((m.closeDevice epos).openDevice epos).keyHandle 1000000 500)).Safe :=
    Machine.Always.of_prefix hactive (prefix_activateDevice epos _)
  have hopened : ((m.closeDevice epos).openDevice epos).Secure := (safe_call_own rfl).mp hset
  refine ⟨(held_openDevice epos).mp hopened.held, ?_⟩
  by_contra hfailed
  simp only [activateDevice] at hactive
  rw [if_neg hfailed] at hactive
  have henabled := Machine.Always.of_prefix hactive (prefix_call epos _ _)
  exact not_held_closeDevice epos _ ((starts_switchDevice epos _ true _).secure henabled).held

/-! ### Runs -/

theorem starts_step (op : Op) : Starts epos m (step epos m op) := by
  cases op with
  | initializeDevice => exact starts_initializeDevice epos m
  | setSpeed speed =>
    refine Starts.trans ?_ (prefix_call epos _ _)
    refine Starts.trans ?_ (prefix_callWithErrorCode epos _ _)
    exact starts_callWithErrorCode ⟨rfl, fun _ _ => rfl⟩
  | move targetPosition =>
    have hmode : Starts epos m (m.call epos (.activateProfilePositionMode m.keyHandle m.nodeID)) :=
      starts_call ⟨rfl, fun _ _ => rfl⟩
    simp only [Motor.step, move, getCurrentPosition]
    refine Starts.trans ?_ (prefix_call epos _ _)
    split_ifs
    · exact (hmode.trans (prefix_call epos _ _)).trans (prefix_call epos _ _)
    · exact hmode
  | halt => exact starts_call ⟨rfl, fun _ _ => rfl⟩
  | reachedTarget => exact starts_call ⟨rfl, fun _ _ => rfl⟩
  | getCurrentPosition => exact starts_call ⟨rfl, fun _ _ => rfl⟩
  | errorNbr => exact starts_call ⟨rfl, fun _ _ => rfl⟩
  | getSupply =>
    refine Starts.trans ?_ (prefix_callWithErrorCode epos _ _)
    exact starts_callWithErrorCode ⟨rfl, fun _ _ => rfl⟩
  | closeDevice => exact starts_closeDevice epos m

variable {m}

theorem Secure.step (h : m.Secure) (op : Op) (hr : op = .initializeDevice → Reopens epos m) :
    (step epos m op).Safe := by
  cases op with
  | initializeDevice => exact (h.initializeDevice epos (hr rfl)).safe
  | setSpeed speed => exact (h.setSpeed epos speed).safe
  | move targetPosition => exact (h.move epos targetPosition).safe
  | halt => exact (h.call epos ⟨rfl, fun _ _ => rfl⟩).safe
  | reachedTarget => exact (h.call epos ⟨rfl, fun _ _ => rfl⟩).safe
  | getCurrentPosition => exact (h.call epos ⟨rfl, fun _ _ => rfl⟩).safe
  | errorNbr => exact (h.call epos ⟨rfl, fun _ _ => rfl⟩).safe
  | getSupply => exact (h.getSupply epos).safe
  | closeDevice => exact h.closeDevice epos

/-- **The handle is used only while open exactly when every operation finds it open and
every initialisation opens it again.** -/
theorem safe_iff_steps (h : m.Safe) (ops : List Op) : ((machine epos m).run ops).Safe ↔
    ∀ x ∈ (machine epos m).steps ops, x.1.Held ∧
      (x.2 = .initializeDevice → Reopens epos x.1) := by
  refine Machine.run_iff_steps (m := machine epos m) (P := Safe)
    (G := fun m op => m.Held ∧ (op = .initializeDevice → Reopens epos m)) h ?_ ops
  intro m' op _
  constructor
  · intro hsafe
    have hsecure := (starts_step epos m' op).secure hsafe
    refine ⟨hsecure.safe, hsecure.held, ?_⟩
    rintro rfl
    exact reopens_of_safe epos m' hsafe
  · exact fun hstep => Secure.step epos ⟨hstep.1, hstep.2.1⟩ op hstep.2.2

/-! ### From the constructor on -/

end CMaxonMotor

/-- **From the constructor on, the first operation already uses a handle that was never
opened**: the constructor leaves `keyHandle` as it is, and even `initializeDevice`
closes before it opens. -/
theorem safe_iff_nil (epos : Epos) (keyHandle : KeyHandle) (portNamestr : String)
    (inputNodeId : Nat) (ops : List Op) :
    handles.Always UsesOpen
        ((machine epos (construct keyHandle portNamestr inputNodeId)).run ops).calls ↔
      ops = [] := by
  have hstart : (construct keyHandle portNamestr inputNodeId).Safe := Machine.alwaysFrom_nil _
  refine (CMaxonMotor.safe_iff_steps epos hstart ops).trans ?_
  cases ops with
  | nil => simp [Machine.steps, Machine.stepsFrom]
  | cons op ops =>
    refine iff_of_false ?_ (by simp)
    intro h
    have hfirst := (h _ List.mem_cons_self).1
    exact absurd hfirst.2 (by simp [construct, machine, handles])

/-- Everything succeeds, and every device opened has the handle 7. -/
def obliging : Epos := fun _ => ⟨true, 7, 0, ⟨0, 0, 0⟩, 0⟩

/-- The first initialisation asks for the fault state of a handle nobody opened. -/
theorem handle_used_unopened : ¬ ∀ (epos : Epos) (keyHandle : KeyHandle) (portNamestr : String)
    (inputNodeId : Nat) (ops : List Op), handles.Always UsesOpen
      ((machine epos (construct keyHandle portNamestr inputNodeId)).run ops).calls := by
  intro h
  have hfirst := h obliging 0 "USB0" 1 [.initializeDevice]
  exact absurd hfirst (by decide)

end Orbiter.Motor
