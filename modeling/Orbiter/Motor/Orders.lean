import Orbiter.Motor.KeyHandle

/-!
# The orders the drive gets

Of all its calls only `VCS_MoveToPosition` and `VCS_HaltPositionMovement` make the drive
move or stop.  `Move` switches the drive to its position mode first and gives no order when
that fails; its caller does not learn of it.

* `told_step`: what one operation tells the drive.
* `Heard.runFrom`: **the drive is told what was ordered**, in its order, up to the moves
  whose mode switch failed.
-/

namespace Orbiter.Motor

/-- The operations that order the drive to move or to stop. -/
def Op.isOrder : Op → Bool
  | .move _ => true
  | .halt => true
  | _ => false

def Vcs.order : Vcs → Option Op
  | .moveToPosition _ _ targetPosition _ _ => some (.move targetPosition)
  | .haltPositionMovement _ _ => some .halt
  | _ => none

def Switched (x : Vcs × Reply) : Bool :=
  match x.1 with
  | .activateProfilePositionMode _ _ => x.2.ok
  | _ => true

namespace CMaxonMotor

variable (epos : Epos) (m : CMaxonMotor)

def told : List Op := m.calls.filterMap fun x => x.1.order

def modesOn : Bool := m.calls.all Switched

/-- The operation is an order, and the mode switch of a move does not fail. -/
def accepts : Op → Bool
  | .move _ => (m.reply epos).ok
  | .halt => true
  | _ => false

/-! ### One call -/

@[simp] theorem calls_call (c : Vcs) :
    (m.call epos c).calls = m.calls ++ [(c, m.reply epos)] := rfl

theorem told_call (c : Vcs) : (m.call epos c).told = m.told ++ c.order.toList := by
  rw [told, calls_call, List.filterMap_append]
  cases h : c.order <;> simp [told, h]

variable {m}

theorem told_quiet {c : Vcs} (h : c.order = none) : (m.call epos c).told = m.told := by
  rw [told_call, h, Option.toList_none, List.append_nil]

theorem told_quietWithErrorCode {c : Vcs} (h : c.order = none) :
    (m.callWithErrorCode epos c).told = m.told := told_quiet epos h

variable (m)

/-! ### The methods -/

theorem told_clearFault : (m.clearFault epos).2.told = m.told := by
  simp only [clearFault]
  split_ifs
  · exact told_quiet epos rfl
  · exact (told_quiet epos rfl).trans (told_quiet epos rfl)
  · exact told_quiet epos rfl

theorem told_switchDevice (enable : Bool) {setState : Vcs} (h : setState.order = none) :
    (m.switchDevice epos enable setState).told = m.told := by
  have hclear := told_clearFault epos m
  simp only [switchDevice]
  split_ifs
  · exact hclear
  · exact ((told_quiet epos h).trans (told_quiet epos rfl)).trans hclear
  · exact (told_quiet epos rfl).trans hclear

theorem told_closeDevice : (m.closeDevice epos).told = m.told := by
  have hdisable : (m.disableDevice epos).told = m.told := told_switchDevice epos m false rfl
  simp only [closeDevice]
  rw [told_quiet epos rfl]
  split_ifs
  · exact (told_quiet epos rfl).trans hdisable
  · exact hdisable

theorem told_activateDevice : (m.activateDevice epos).told = m.told := by
  have hopen : (m.openDevice epos).told = m.told := told_quiet epos rfl
  simp only [activateDevice]
  rw [told_quiet epos rfl, enableDevice, told_switchDevice epos _ true rfl]
  split_ifs
  · exact (told_quiet epos rfl).trans hopen
  · exact (told_closeDevice epos _).trans ((told_quiet epos rfl).trans hopen)

theorem told_setPosModeParameter : (m.setPosModeParameter epos).told = m.told := by
  simp only [setPosModeParameter]
  iterate 5 rw [told_quietWithErrorCode epos rfl]

theorem told_initializeDevice : (m.initializeDevice epos).told = m.told := by
  rw [initializeDevice, told_setPosModeParameter, told_activateDevice, told_closeDevice]

theorem told_setSpeed (speed : ℚ) : (m.setSpeed epos speed).told = m.told := by
  simp only [setSpeed]
  rw [told_quiet epos rfl, told_quietWithErrorCode epos rfl, told_quietWithErrorCode epos rfl]

theorem told_getSupply : (m.getSupply epos).2.told = m.told := by
  simp only [getSupply]
  rw [told_quietWithErrorCode epos rfl, told_quietWithErrorCode epos rfl]

theorem told_idleFunc : (m.idleFunc epos).told = m.told := by
  have hidle : ((m.getCurrentPosition epos).2.errorNbr epos).2.told = m.told :=
    (told_quiet epos rfl).trans (told_quiet epos rfl)
  simp only [idleFunc]
  split_ifs
  · rw [told_initializeDevice, told_initializeDevice, hidle]
  · rw [told_initializeDevice, hidle]
  · rw [told_initializeDevice, hidle]
  · exact hidle

theorem told_move (targetPosition : Int) : (m.move epos targetPosition).told =
    m.told ++ if (m.reply epos).ok then [.move targetPosition] else [] := by
  simp only [move, getCurrentPosition]
  rw [told_quiet epos rfl]
  split_ifs
  · rw [told_call, told_quiet epos rfl, told_quiet epos rfl]
    rfl
  · rw [told_quiet epos rfl, List.append_nil]

/-- **What one operation tells the drive.** -/
theorem told_step (op : Op) :
    (step epos m op).told = m.told ++ if m.accepts epos op then [op] else [] := by
  cases op with
  | initializeDevice => exact (told_initializeDevice epos m).trans (List.append_nil _).symm
  | setSpeed speed => exact (told_setSpeed epos m speed).trans (List.append_nil _).symm
  | move targetPosition => exact told_move epos m targetPosition
  | halt => exact told_call epos m _
  | reachedTarget => exact told_call epos m _
  | getCurrentPosition => exact told_call epos m _
  | errorNbr => exact told_call epos m _
  | getSupply => exact (told_getSupply epos m).trans (List.append_nil _).symm
  | closeDevice => exact (told_closeDevice epos m).trans (List.append_nil _).symm

/-! ### A run -/

theorem prefix_move (targetPosition : Int) :
    (m.call epos (.activateProfilePositionMode m.keyHandle m.nodeID)).calls <+:
      (m.move epos targetPosition).calls := by
  simp only [move, getCurrentPosition]
  split_ifs
  · refine List.IsPrefix.trans ?_ (prefix_call epos _ _)
    exact (prefix_call epos _ _).trans (prefix_call epos _ _)
  · exact prefix_call epos _ _

variable {m}

theorem modesOn.of_calls {m' : CMaxonMotor} (h : m'.modesOn = true) (hp : m.calls <+: m'.calls) :
    m.modesOn = true := by
  rw [modesOn, List.all_eq_true] at h ⊢
  exact fun x hx => h x (hp.subset hx)

variable {epos}

theorem accepts_of_modesOn {op : Op} (h : (step epos m op).modesOn = true) :
    m.accepts epos op = op.isOrder := by
  cases op with
  | move targetPosition =>
    have hmode := modesOn.of_calls h (prefix_move epos m targetPosition)
    rw [modesOn, List.all_eq_true] at hmode
    exact hmode (.activateProfilePositionMode m.keyHandle m.nodeID, m.reply epos) (by simp)
  | _ => rfl

/-- What a motor that has been told `l` may have been told `told` of. -/
structure Heard (m : CMaxonMotor) (l : List Op) : Prop where
  sublist : m.told.Sublist l
  eq : m.modesOn = true → m.told = l

theorem Heard.step {l : List Op} (h : m.Heard l) (epos : Epos) (op : Op) :
    (step epos m op).Heard (l ++ [op].filter Op.isOrder) := by
  have haccepts : m.accepts epos op = true → op.isOrder = true := by
    cases op <;> simp [accepts, Op.isOrder]
  refine ⟨?_, ?_⟩
  · rw [told_step]
    refine h.sublist.append ?_
    cases hop : m.accepts epos op with
    | true => rw [if_pos rfl, List.filter_cons_of_pos (haccepts hop), List.filter_nil]
    | false => exact List.nil_sublist _
  · intro hmodes
    have hbefore := modesOn.of_calls hmodes (starts_step epos m op).calls
    rw [told_step, accepts_of_modesOn hmodes, h.eq hbefore]
    cases hop : op.isOrder <;> simp [hop]

/-- **The drive is told what was ordered**, in its order, up to the moves whose mode switch
failed. -/
theorem Heard.runFrom {l : List Op} (h : m.Heard l) (epos : Epos) (ops : List Op) :
    (ops.foldl (Motor.step epos) m).Heard (l ++ ops.filter Op.isOrder) := by
  induction ops generalizing m l with
  | nil =>
    rw [List.filter_nil, List.append_nil]
    exact h
  | cons op ops ih =>
    have hrest := ih (h.step epos op)
    rw [List.append_assoc, ← List.filter_append] at hrest
    exact hrest

theorem Heard.quiet {l : List Op} (h : m.Heard l) (epos : Epos) (op : Op)
    (hop : op.isOrder = false) : (Motor.step epos m op).Heard l := by
  have hstep := h.step epos op
  rw [List.filter_cons_of_neg (by simp [hop]), List.filter_nil, List.append_nil] at hstep
  exact hstep

theorem Heard.idleFunc {l : List Op} (h : m.Heard l) (epos : Epos) : (m.idleFunc epos).Heard l := by
  have hidle := (h.quiet epos .getCurrentPosition rfl).quiet epos .errorNbr rfl
  simp only [CMaxonMotor.idleFunc]
  split_ifs
  · exact (hidle.quiet epos .initializeDevice rfl).quiet epos .initializeDevice rfl
  · exact hidle.quiet epos .initializeDevice rfl
  · exact hidle.quiet epos .initializeDevice rfl
  · exact hidle

end CMaxonMotor

end Orbiter.Motor
