import Orbiter.Motor.KeyHandle

/-!
# The profile of the drive

The drive stores a velocity and a ramp, its acceleration and deceleration.  `setSpeed`
reads all three, replaces the velocity and writes them back, without a look at whether
it could read them.

* `stored_setSpeed`: what the drive stores behind a `setSpeed`.
* `keepsRamp_iff_step`: when one `setSpeed` keeps the ramp.
* `keepsRamp_iff`: **every `setSpeed` of a run keeps the ramp exactly when none writes a
  profile it failed to read**, or it writes the stored ramp by luck.
-/

namespace Orbiter.Motor

/-- What a call stores: only a `VCS_SetPositionProfile` that succeeds stores anything. -/
def store (profile : Profile) : Vcs × Reply → Profile
  | (.setPositionProfile _ _ velocity acceleration deceleration, reply) =>
    if reply.ok then ⟨velocity, acceleration, deceleration⟩ else profile
  | _ => profile

def drive (profile : Profile) : Machine Profile (Vcs × Reply) where
  init := profile
  step := store

/-- A `VCS_GetPositionProfile` that succeeds returns what is stored. -/
def Truthful (profile : Profile) : Vcs × Reply → Prop
  | (.getPositionProfile _ _, reply) => reply.ok = true → reply.profile = profile
  | _ => True

instance (profile : Profile) (x : Vcs × Reply) : Decidable (Truthful profile x) := by
  obtain ⟨c, reply⟩ := x
  cases c <;> unfold Truthful <;> infer_instance

def Profile.ramp (profile : Profile) : Nat × Nat := (profile.acceleration, profile.deceleration)

namespace CMaxonMotor

variable (epos : Epos) (profile : Profile) (m : CMaxonMotor)

/-- The profile stored in the drive, which had `profile` before the first call. -/
def stored : Profile := (drive profile).run m.calls

def written : Reply :=
  (m.callWithErrorCode epos (.getPositionProfile m.keyHandle m.nodeID)).reply epos

theorem stored_call (c : Vcs) :
    (m.call epos c).stored profile = store (m.stored profile) (c, m.reply epos) :=
  Machine.run_concat _ _ _

theorem stored_callWithErrorCode (c : Vcs) : (m.callWithErrorCode epos c).stored profile =
    store (m.stored profile) (c, m.reply epos) := Machine.run_concat _ _ _

/-- **What the drive stores behind a `setSpeed`.** -/
theorem stored_setSpeed (speed : ℚ) : (m.setSpeed epos speed).stored profile =
    if (m.written epos).ok then
      ⟨(Cxx.truncate (200 * speed)).toNat, (m.reply epos).profile.acceleration,
        (m.reply epos).profile.deceleration⟩
    else m.stored profile := by
  rw [setSpeed, stored_call, stored_callWithErrorCode, stored_callWithErrorCode]
  rfl

/-- The step leaves acceleration and deceleration alone, if it is a `setSpeed`. -/
def KeepsRamp (m : CMaxonMotor) : Op → Prop
  | .setSpeed speed => ((m.setSpeed epos speed).stored profile).ramp = (m.stored profile).ramp
  | _ => True

instance (op : Op) : Decidable (KeepsRamp epos profile m op) := by
  cases op <;> unfold KeepsRamp <;> infer_instance

/-- A `setSpeed` reads the profile, fails to write it, or finds the stored ramp in the
variables it did not set. -/
def ReadsProfile (m : CMaxonMotor) : Op → Prop
  | .setSpeed _ => (m.reply epos).ok = true ∨ (m.written epos).ok = false ∨
      (m.reply epos).profile.ramp = (m.stored profile).ramp
  | _ => True

instance (op : Op) : Decidable (ReadsProfile epos profile m op) := by
  cases op <;> unfold ReadsProfile <;> infer_instance

variable {epos profile}

/-- The read of a `setSpeed` that succeeds returns what is stored. -/
theorem profile_of_truthful {m : CMaxonMotor} {speed : ℚ}
    (h : (drive profile).Always Truthful (m.setSpeed epos speed).calls)
    (hok : (m.reply epos).ok = true) : (m.reply epos).profile = m.stored profile := by
  have hprefix : (m.callWithErrorCode epos (.getPositionProfile m.keyHandle m.nodeID)).calls <+:
      (m.setSpeed epos speed).calls :=
    (prefix_callWithErrorCode epos _ _).trans (prefix_call epos _ _)
  have hread := (Machine.always_append.mp (h.of_prefix hprefix)).2
  exact (Machine.alwaysFrom_cons.mp hread).1 hok

/-- **When one `setSpeed` keeps the ramp.** -/
theorem keepsRamp_iff_step {m : CMaxonMotor} {op : Op}
    (h : (drive profile).Always Truthful (step epos m op).calls) :
    KeepsRamp epos profile m op ↔ ReadsProfile epos profile m op := by
  cases op with
  | setSpeed speed =>
    rw [KeepsRamp, ReadsProfile, stored_setSpeed]
    cases hwrite : (m.written epos).ok with
    | false => simp
    | true =>
      have hramp : (Profile.mk (Cxx.truncate (200 * speed)).toNat
          (m.reply epos).profile.acceleration (m.reply epos).profile.deceleration).ramp =
          (m.reply epos).profile.ramp := rfl
      rw [if_pos rfl, hramp]
      refine ⟨fun hkeep => Or.inr (Or.inr hkeep), ?_⟩
      rintro (hok | hfail | hluck)
      · rw [profile_of_truthful h hok]
      · exact absurd hfail (by simp)
      · exact hluck
  | _ => exact Iff.rfl

theorem calls_prefix_runFrom (ops : List Op) (m m' : CMaxonMotor) :
    m'.calls <+: ((machine epos m).runFrom m' ops).calls := by
  induction ops generalizing m' with
  | nil => exact List.prefix_rfl
  | cons op ops ih => exact (starts_step epos m' op).calls.trans (ih (step epos m' op))

theorem truthful_step {m m' : CMaxonMotor} {op : Op} {ops : List Op}
    (h : (drive profile).Always Truthful ((machine epos m).run ops).calls)
    (hstep : (m', op) ∈ (machine epos m).steps ops) :
    (drive profile).Always Truthful (step epos m' op).calls := by
  obtain ⟨pre, post, rfl, rfl⟩ := (machine epos m).mem_steps_iff.mp hstep
  rw [Machine.run_append, Machine.runFrom_cons] at h
  exact h.of_prefix (calls_prefix_runFrom post m _)

end CMaxonMotor

/-- **Every `setSpeed` of a run keeps the ramp exactly when none writes a profile it
failed to read**, or it writes the stored ramp by luck. -/
theorem keepsRamp_iff {epos : Epos} {profile : Profile} {m : CMaxonMotor} {ops : List Op}
    (h : (drive profile).Always Truthful ((machine epos m).run ops).calls) :
    (∀ x ∈ (machine epos m).steps ops, x.1.KeepsRamp epos profile x.2) ↔
      ∀ x ∈ (machine epos m).steps ops, x.1.ReadsProfile epos profile x.2 :=
  forall₂_congr fun _ hx => CMaxonMotor.keepsRamp_iff_step (CMaxonMotor.truthful_step h hx)

def honest (profile : Profile) : Epos := fun calls => ⟨true, 7, 0, (drive profile).run calls, 0⟩

theorem keepsRamp_honest :
    let m := construct 0 "USB0" 1
    let ops : List Op := [.initializeDevice, .setSpeed 10, .move 5, .setSpeed 20]
    (∀ x ∈ (machine (honest ⟨1, 2, 3⟩) m).steps ops,
        x.1.KeepsRamp (honest ⟨1, 2, 3⟩) ⟨1, 2, 3⟩ x.2) ↔
      ∀ x ∈ (machine (honest ⟨1, 2, 3⟩) m).steps ops,
        x.1.ReadsProfile (honest ⟨1, 2, 3⟩) ⟨1, 2, 3⟩ x.2 :=
  keepsRamp_iff (by decide +kernel)

/-- The same drive behind a link that loses the read of a `setSpeed` right behind the
initialisation. -/
def lossy (profile : Profile) : Epos := fun calls =>
  if calls.length = 14 then ⟨false, 7, 0, ⟨0, 77, 88⟩, 0⟩ else honest profile calls

/-- What was in the variables becomes the ramp. -/
theorem ramp_overwritten : ¬ ∀ (epos : Epos) (profile : Profile) (m : CMaxonMotor)
    (ops : List Op), (∀ op ∈ ops, (∃ speed, op = .setSpeed speed) ∨ ∃ target, op = .move target) →
    (drive profile).Always Truthful ((machine epos m).run (.initializeDevice :: ops)).calls →
    ∀ x ∈ (machine epos m).steps (.initializeDevice :: ops), x.1.KeepsRamp epos profile x.2 := by
  intro h
  have hlost := h (lossy ⟨1, 2, 3⟩) ⟨1, 2, 3⟩ (construct 0 "USB0" 1) [.setSpeed 10]
    (by simp) (by decide +kernel)
  exact absurd hlost (by decide +kernel)

end Orbiter.Motor
