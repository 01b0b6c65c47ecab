import Fxcode.GameView.Input
/-!
# What the game holds down

The game learns about keys and buttons only through `setKeyState` and
`setMouseButtonState`, so a key is held in the game exactly when the last call for it
said so.  This module compares that with the view's own arrays `_keysState` and
`_buttonsState` over every run.

* `keyMirror_run`: for keys the two always agree, so `_resetStates` leaves no key held.
* `buttonMirror_run`: every button the view records as held is held in the game under
  its mapped code, and for every button other than the middle and right ones the two agree.
* `resetStates_leaves_right_button_held`: for the right button they do not.  Presses
  send `mapMouseButton button`, but `_resetStates` releases by the raw array index, so a
  right button held during a window blur stays held in the game under code 1.
-/

namespace Fxcode.GameView.Mirror

open Fxcode.GameView.Input

variable (s : GameView) (button : Nat) (down : Bool)

/-- `mapMouseButton` only swaps 1 and 2. -/
@[simp] theorem mapMouseButton_mapMouseButton (button : Nat) :
    mapMouseButton (mapMouseButton button) = button := by
  unfold mapMouseButton; split_ifs <;> omega

theorem mapMouseButton_injective : Function.Injective mapMouseButton :=
  Function.LeftInverse.injective mapMouseButton_mapMouseButton

theorem mapMouseButton_of_ne (hone : button ≠ 1) (htwo : button ≠ 2) :
    mapMouseButton button = button := by
  simp [mapMouseButton, hone, htwo]

/-! ## What one step does to the keys and to the buttons -/

/-- What a step may do to the keys: leave them, pass one key to the game, or release
every held one. -/
inductive KeysEffect (s t : GameView) : Prop
  | keep (hstate : t.keysState = s.keysState) (hsent : t.keyStateSent = s.keyStateSent)
  | pass (vk : Nat) (down : Bool) (hstate : t.keysState = Function.update s.keysState vk down)
      (hsent : t.keyStateSent = Function.update s.keyStateSent vk down)
  | reset (hstate : t.keysState = (resetStates s).keysState)
      (hsent : t.keyStateSent = (resetStates s).keyStateSent)

/-- What a step may do to the buttons: leave them, pass one button to the game under its
mapped code, or release every held one by its raw index. -/
inductive ButtonsEffect (s t : GameView) : Prop
  | keep (hstate : t.buttonsState = s.buttonsState)
      (hsent : t.mouseButtonStateSent = s.mouseButtonStateSent)
  | pass (button : Nat) (down : Bool)
      (hstate : t.buttonsState = Function.update s.buttonsState button down)
      (hsent : t.mouseButtonStateSent =
        Function.update s.mouseButtonStateSent (mapMouseButton button) down)
  | reset (hstate : t.buttonsState = (resetStates s).buttonsState)
      (hsent : t.mouseButtonStateSent = (resetStates s).mouseButtonStateSent)

theorem step_keys (e : Event) : KeysEffect s (step s e) := by
  cases e with
  | keydown which location key shiftKey =>
    simp only [step, handleKeydown]
    split_ifs
    · exact .keep rfl rfl
    · exact .keep rfl rfl
    · exact .keep rfl rfl
    · exact .pass (mapKey which location) true rfl rfl
  | keyup which location =>
    simp only [step, handleKeyup]
    split_ifs
    · exact .keep rfl rfl
    · exact .pass (mapKey which location) false rfl rfl
  | mousedown button =>
    simp only [step, handleMousedown]
    split_ifs <;> exact .keep rfl rfl
  | mouseup button =>
    simp only [step, handleMouseup]
    split_ifs <;> first | exact .keep rfl rfl | exact .reset rfl rfl
  | pointerlockchange locked =>
    simp only [step, handlePointerLockChange]
    split_ifs <;> first | exact .keep rfl rfl | exact .reset rfl rfl
  | windowBlur => exact .reset rfl rfl
  | _ => exact .keep rfl rfl

theorem step_buttons (e : Event) : ButtonsEffect s (step s e) := by
  cases e with
  | keydown which location key shiftKey =>
    simp only [step, handleKeydown]
    split_ifs
    · exact .keep rfl rfl
    · exact .keep rfl rfl
    · exact .keep rfl rfl
    · exact .keep rfl rfl
  | mousedown button =>
    simp only [step, handleMousedown]
    split_ifs <;> first | exact .keep rfl rfl | exact .pass button true rfl rfl
  | mouseup button =>
    simp only [step, handleMouseup]
    split_ifs with hobserving hcontroling
    · simp_all [ModeObserving, ModeControling]
    · exact .reset rfl rfl
    · exact .pass button false rfl rfl
    · exact .keep rfl rfl
  | keyup which location =>
    simp only [step, handleKeyup]
    split_ifs <;> exact .keep rfl rfl
  | pointerlockchange locked =>
    simp only [step, handlePointerLockChange]
    split_ifs <;> first | exact .keep rfl rfl | exact .reset rfl rfl
  | windowBlur => exact .reset rfl rfl
  | _ => exact .keep rfl rfl

/-! ## Keys: the game holds exactly what the view records -/

/-- The game holds a key exactly when the view records it as held. -/
def KeyMirror (s : GameView) : Prop := ∀ k, s.keyStateSent k = s.keysState k

theorem keyMirror_step (h : KeyMirror s) (e : Event) : KeyMirror (step s e) := by
  intro k
  cases step_keys s e with
  | keep hstate hsent => rw [hstate, hsent]; exact h k
  | pass vk down hstate hsent =>
    rw [hstate, hsent, Function.update_apply, Function.update_apply, h k]
  | reset hstate hsent => rw [hstate, hsent]; simp [h k]

/-- In every state a run reaches, `setKeyState` last told the game, for every key code,
what `_keysState` holds; in particular after `_resetStates` no key is held. -/
theorem keyMirror_run (es : List Event) : KeyMirror (run initial es) :=
  run_induction keyMirror_step es fun _ => rfl

/-! ## Buttons: presses always reach the game, releases by index miss the swapped pair -/

/-- Every button the view records as held is held in the game under its mapped code, and
for buttons outside the swapped pair the game holds exactly what the view records. -/
def ButtonMirror (s : GameView) : Prop :=
  ∀ b, (s.buttonsState b = true → s.mouseButtonStateSent (mapMouseButton b) = true) ∧
    (b ≠ 1 → b ≠ 2 → s.mouseButtonStateSent b = s.buttonsState b)

theorem buttonMirror_pass (h : ButtonMirror s) :
    ButtonMirror (passButton s button down) := by
  intro b
  by_cases hb : b = button
  · subst hb
    refine ⟨fun hheld => by simpa using hheld, fun hone htwo => ?_⟩
    rw [passButton_mouseButtonStateSent, mapMouseButton_of_ne b hone htwo]
    simp
  · have hmap : mapMouseButton b ≠ mapMouseButton button := mapMouseButton_injective.ne hb
    refine ⟨fun hheld => ?_, fun hone htwo => ?_⟩
    · simpa [hmap] using (h b).1 (by simpa [hb] using hheld)
    · have hsent : b ≠ mapMouseButton button := by
        rintro rfl
        have hfixed := mapMouseButton_of_ne _ hone htwo
        rw [mapMouseButton_mapMouseButton] at hfixed
        exact hb hfixed.symm
      simpa [hb, hsent] using (h b).2 hone htwo

theorem buttonMirror_step (h : ButtonMirror s) (e : Event) : ButtonMirror (step s e) := by
  cases step_buttons s e with
  | keep hstate hsent => intro b; rw [hstate, hsent]; exact h b
  | pass button down hstate hsent =>
    have hpass := buttonMirror_pass s button down h
    intro b
    rw [hstate, hsent]
    exact hpass b
  | reset hstate hsent =>
    intro b
    rw [hstate, hsent]
    simp only [resetStates_buttonsState, resetStates_mouseButtonStateSent]
    refine ⟨fun hheld => absurd hheld Bool.false_ne_true, fun hone htwo => ?_⟩
    simp [(h b).2 hone htwo]

/-- In every state a run reaches, every button `_buttonsState` records as held is held
in the game under `mapMouseButton`, and every button other than the middle (1) and right
(2) ones is held in the game exactly when `_buttonsState` says so. -/
theorem buttonMirror_run (es : List Event) : ButtonMirror (run initial es) :=
  run_induction buttonMirror_step es fun _ => ⟨fun h => absurd h Bool.false_ne_true, fun _ _ => rfl⟩

/-- The right button pressed in controlling mode and then a window blur: `_resetStates`
clears `_buttonsState[2]` and calls `setMouseButtonState(2, false)`, but the press was
sent as `setMouseButtonState(1, true)`, which nothing releases. -/
theorem resetStates_leaves_right_button_held :
    (run initial [.mousedown 2, .windowBlur]).buttonsState 2 = false ∧
      (run initial [.mousedown 2, .windowBlur]).mouseButtonStateSent (mapMouseButton 2) = true := by
  decide

end Fxcode.GameView.Mirror
