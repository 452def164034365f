import Orbiter.Main.DigitBuffer
import Orbiter.Main.Presses

/-!
# Key names in a code line

lirc writes the code in hex, the repeat count, the button and the remote into one line.
`TimerFunc` searches the whole line for the key names, one after the other, and the last
one found wins.

* `recognise_text`: a search finds a key name in the button or in the remote.
* `keysAgree`: between two ticks the keys agree.
* `idle_iff`: a tick acts on the keys with an action, and on no other.
* `KeysAgree.namesButton_iff_unmistaken`: one tick and its line.
* `namesButton_iff`: **the ticks recognise the button alone exactly when no remote has a key
  name in it that is searched for behind the button, and with a button that is no key name
  the last key name in the line has no action or is the key before.**
-/

namespace Orbiter.Main

open Cxx Toolbox Stimuli Globals

/-! ### What a search finds -/

namespace CodeLine

variable (line : CodeLine)

def Hex : Prop := (line.code ++ line.repeats).all isXDigit = true

instance : Decidable line.Hex :=
  inferInstanceAs (Decidable ((line.code ++ line.repeats).all isXDigit = true))

def found : List (Str × Option Taste) :=
  keyNames.filter fun name => contains line.button name.1 || contains line.remote name.1

variable {line}

/-- A key name has no separator in it, and a character that is not one of a number. -/
theorem keyNames_plain : ∀ name ∈ keyNames,
    ' ' ∉ name.1 ∧ '\n' ∉ name.1 ∧ name.1.all isXDigit = false := by decide

/-- A search finds a key name in the button or in the remote. -/
theorem contains_text (h : line.Hex) {name : Str × Option Taste} (hname : name ∈ keyNames) :
    contains line.text name.1 = (contains line.button name.1 || contains line.remote name.1) := by
  obtain ⟨hblank, hnewline, hplain⟩ := keyNames_plain name hname
  obtain ⟨c, hc, hdigit⟩ := List.all_eq_false.mp hplain
  have hnot : ∀ s : Str, (∀ c ∈ s, isXDigit c = true) → contains s name.1 = false := by
    intro s hs
    exact contains_eq_false hc fun hmem => hdigit (hs c hmem)
  have hall := List.all_eq_true.mp h
  have hcode := hnot line.code fun c hmem => hall c (List.mem_append_left _ hmem)
  have hrepeats := hnot line.repeats fun c hmem => hall c (List.mem_append_right _ hmem)
  have hend := hnot [] (by simp)
  rw [text, contains_append_cons hnewline, contains_append_cons hblank,
    contains_append_cons hblank, contains_append_cons hblank, hcode, hrepeats, hend,
    Bool.or_false, Bool.false_or, Bool.false_or]

end CodeLine

/-- **The last key name in the button and the remote wins**, and without one the key stays. -/
theorem Remote.recognise_text (r : Remote) {line : CodeLine} (h : line.Hex) :
    r.recognise line.text = (line.found.getLast?.map Prod.snd).getD r.cTaste := by
  rw [Remote.recognise, foldl_ite_eq_getLast?, CodeLine.found,
    List.filter_congr fun name hname => CodeLine.contains_text h hname]

/-! ### The ticks -/

variable (env : Env) (g : Globals) (answers : Answers)

/-- The tick before ended with the key that is stored. -/
def KeysAgree (g : Globals) : Prop := g.remote.oldCTaste = g.remote.cTaste

theorem keysAgree : (machine env).Invariant KeysAgree where
  init := rfl
  step := by
    intro g a _ h
    cases a with
    | tcpPush msg => exact h
    | irPush code => exact h
    | tick answers =>
      show (g.timerFunc env answers).remote.oldCTaste = (g.timerFunc env answers).remote.cTaste
      rw [remote_timerFunc]

/-- A tick triggers no action: behind its movement it changes the line and the keys only. -/
def Idle : Prop :=
  (g.timerFunc env answers).remote =
    { (g.afterMovement env answers).remote with
      szTxt2 := g.code
      cTaste := g.key
      oldCTaste := g.key }

/-- Every action calls the motor, writes a digit, turns or moves the target. -/
theorem Remote.not_hasAction_of_act {r : Remote} {key : Taste}
    (hcalls : (r.act key).calls = r.calls) (hangle : (r.act key).iAngle = r.iAngle)
    (htarget : (r.act key).iTargetPosition = r.iTargetPosition) : key.hasAction = false := by
  rw [r.act_calls, List.append_right_eq_self] at hcalls
  cases key with
  | keyVolumeup | keyVolumedown | keyForward | keyBackward | back | check => rfl
  | prev => exact absurd hangle (show r.iAngle - 15 ≠ r.iAngle by omega)
  | next => exact absurd hangle (show r.iAngle + 15 ≠ r.iAngle by omega)
  | sub10 =>
    exact absurd htarget (show r.iTargetPosition + 100000 ≠ r.iTargetPosition by omega)
  | _ => exact absurd hcalls (List.cons_ne_nil _ _)

/-- **A tick triggers no action when the key it acts on has none.** -/
theorem idle_iff : Idle env g answers ↔
    ∀ key, g.pressed = some key → key.hasAction = false := by
  rw [Idle, remote_timerFunc]
  cases hpressed : g.pressed with
  | none => exact iff_of_true rfl nofun
  | some key =>
    constructor
    · intro h key' hkey
      have hcalls := congrArg Remote.calls h
      have hangle := congrArg Remote.iAngle h
      have htarget := congrArg Remote.iTargetPosition h
      rw [← Option.some.inj hkey]
      exact Remote.not_hasAction_of_act (r := (g.afterMovement env answers).remote) hcalls
        hangle htarget
    · intro h
      rw [Option.elim_some, Remote.act_of_not_hasAction _ (h key rfl)]

/-- For a line whose button is a key name the tick stores its key, and for another line it
triggers no action. -/
def NamesButton (env : Env) (g : Globals) : Act → Prop
  | .tick answers => ∀ line : CodeLine, line.Hex → g.code = line.text →
    match keyNames.lookup line.button with
    | some key => (g.timerFunc env answers).remote.cTaste = key
    | none => Idle env g answers
  | _ => True

/-- The key names that are searched for behind the button. -/
def searchedBehind (button : Str) : List (Str × Option Taste) :=
  (keyNames.dropWhile fun name => name.1 ≠ button).tail

/-- No key name that is searched for behind the button is in the remote.  If the button is no
key name, the last one in the button or the remote has no action, or is the key before. -/
def Unmistaken (g : Globals) : Act → Prop
  | .tick _ => ∀ line : CodeLine, line.Hex → g.code = line.text →
    match keyNames.lookup line.button with
    | some _ => ∀ name ∈ searchedBehind line.button, contains line.remote name.1 = false
    | none => ∀ key, line.found.getLast?.bind Prod.snd = some key →
        key.hasAction = false ∨ g.remote.oldCTaste = some key
  | _ => True

variable {g : Globals} {line : CodeLine}

theorem key_of_text (h : line.Hex) (hcode : g.code = line.text) :
    g.key = (line.found.getLast?.map Prod.snd).getD g.remote.cTaste := by
  rw [Globals.key, hcode, Remote.recognise_text _ h]

/-- A search behind another one stores another key, and finds nothing in its name. -/
theorem keyNames_apart : keyNames.Pairwise fun name later =>
    later.2 ≠ name.2 ∧ contains name.1 later.1 = false := by decide +kernel

section Behind

variable {button : Str} {key : Option Taste} {before behind : List (Str × Option Taste)}

theorem searchedBehind_eq (hl : keyNames = before ++ (button, key) :: behind)
    (hbefore : ∀ name ∈ before, (button != name.1) = true) : searchedBehind button = behind := by
  have hdrop : ∀ name ∈ before, decide (name.1 ≠ button) = true := by
    intro name hname
    have hne := hbefore name hname
    exact decide_eq_true (bne_iff_ne.mp hne).symm
  rw [searchedBehind, hl, List.dropWhile_append_of_pos hdrop,
    List.dropWhile_cons_of_neg (by simp), List.tail_cons]

theorem apart_of_behind (hl : keyNames = before ++ (button, key) :: behind) :
    ∀ name ∈ behind, name.2 ≠ key ∧ contains button name.1 = false := by
  have hpairs := keyNames_apart
  rw [hl, List.pairwise_append, List.pairwise_cons] at hpairs
  exact hpairs.2.1.1

/-- The button itself is found, and behind it only what is in the remote. -/
theorem getLast?_found (hl : keyNames = before ++ (line.button, key) :: behind) :
    line.found.getLast? =
      some (((behind.filter fun name => contains line.remote name.1).getLast?).getD
        (line.button, key)) := by
  have hfilter : (behind.filter fun name =>
      contains line.button name.1 || contains line.remote name.1) =
        behind.filter fun name => contains line.remote name.1 :=
    List.filter_congr fun name hname => by rw [(apart_of_behind hl name hname).2, Bool.false_or]
  rw [CodeLine.found, hl, List.filter_append, List.filter_cons_of_pos (by simp [contains_self]),
    hfilter, List.getLast?_append, List.getLast?_cons, Option.some_or]

end Behind

/-- The line of a button that is a key name. -/
theorem key_eq_iff (h : line.Hex) (hcode : g.code = line.text) {key : Option Taste}
    (hkey : keyNames.lookup line.button = some key) :
    g.key = key ↔ ∀ name ∈ searchedBehind line.button, contains line.remote name.1 = false := by
  obtain ⟨before, behind, hl, hbefore⟩ := List.lookup_eq_some_iff.mp hkey
  rw [key_of_text h hcode, getLast?_found hl, searchedBehind_eq hl hbefore]
  cases hremote : (behind.filter fun name => contains line.remote name.1).getLast? with
  | none =>
    rw [List.getLast?_eq_none_iff, List.filter_eq_nil_iff] at hremote
    exact iff_of_true rfl fun name hname => Bool.not_eq_true _ ▸ hremote name hname
  | some name =>
    obtain ⟨hname, hfound⟩ := List.mem_filter.mp (List.mem_of_getLast? hremote)
    refine iff_of_false (apart_of_behind hl name hname).1 ?_
    intro hnone
    exact absurd ((hnone name hname).symm.trans hfound) (by decide)

/-- The line of another button. -/
theorem KeysAgree.pressed_iff (hs : KeysAgree g) (h : line.Hex) (hcode : g.code = line.text)
    (key : Taste) : g.pressed = some key ↔
      line.found.getLast?.bind Prod.snd = some key ∧ g.remote.oldCTaste ≠ some key := by
  have hold : g.remote.oldCTaste = g.remote.cTaste := hs
  rw [pressed_eq_some_iff, key_of_text h hcode, ← hold]
  cases line.found.getLast? with
  | none =>
    refine iff_of_false ?_ (fun hnone => absurd hnone.1 (by simp))
    exact fun hkey => hkey.2 hkey.1
  | some name => exact Iff.rfl

/-- **The line of one tick.** -/
theorem KeysAgree.namesButton_iff_unmistaken (hs : KeysAgree g) (a : Act) :
    NamesButton env g a ↔ Unmistaken g a := by
  cases a with
  | tcpPush msg => exact Iff.rfl
  | irPush code => exact Iff.rfl
  | tick answers =>
    refine forall_congr' fun line => imp_congr_right fun h => imp_congr_right fun hcode => ?_
    cases hkey : keyNames.lookup line.button with
    | some key =>
      simp only [remote_timerFunc]
      exact key_eq_iff h hcode hkey
    | none =>
      simp only [idle_iff, hs.pressed_iff h hcode, and_imp]
      refine forall_congr' fun key => imp_congr_right fun _ => ?_
      rw [or_iff_not_imp_right]

/-- **The ticks recognise the button alone exactly when no remote has a key name in it that
is searched for behind the button, and with a button that is no key name the last key name
in the line has no action or is the key before.** -/
theorem namesButton_iff (acts : List Act) : (machine env).Always (NamesButton env) acts ↔
    ∀ x ∈ (machine env).steps acts, Unmistaken x.1 x.2 := by
  refine (machine env).steps_congr ?_ acts
  intro g a hg
  exact ((keysAgree env).of_reachable hg).namesButton_iff_unmistaken env a

/-- `KEY_PLAYPAUSE` is no key name, and moves as `KEY_PLAY` does. -/
example : ((machine oneSecond).run [.irPush (CodeLine.text
    ⟨"0000000000000001".toList, "00".toList, "KEY_PLAYPAUSE".toList, "SONY".toList⟩)]).pressed =
      some .play := by decide +kernel

/-- The PLAY key of a remote whose name is searched for too. -/
def playOfRaite : CodeLine :=
  ⟨"0000000000000001".toList, "00".toList, "KEY_PLAY".toList, "RaiteDVD-7xx".toList⟩

/-- The name of the remote ends in the mark for no key. -/
theorem play_forgotten : ¬ ∀ acts : List Act,
    (machine oneSecond).Always (NamesButton oneSecond) acts := by
  intro h
  have hstep := (machine oneSecond).mem_steps_concat [.irPush playOfRaite.text] (.tick arrived)
  have hplay : (Main.step oneSecond _ (.tick arrived)).remote.cTaste = some .play :=
    h _ _ hstep playOfRaite (by decide +kernel) rfl
  exact absurd hplay (by decide +kernel)

end Orbiter.Main
