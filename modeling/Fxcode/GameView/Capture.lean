import Fxcode.GameView.Mirror
/-!
# Input capture, pointer lock and raw mouse capture

While `_acceptInput` is set, the capture-phase `keydown`/`keyup` handlers take every key
away from the editor.  The mode comments say who owns that capture: the pointer lock in
controlling mode, a held left button in observing mode.  Raw mouse capture in the game
should follow the pointer lock.  This module states what holds of these three over
every run, and where the code lets them drift apart.

* `rawMouseCapture_follows_lock`: raw capture is on whenever the pointer is locked, and
  on without the lock only after an `enterFullscreenControlingMode` whose lock request no
  `pointerlockchange` has granted.
* `acceptInput_owned_unless_mode_switched`: capture is owned by the lock or by the
  latest left-button press, on every run that does not leave observing mode while the
  left button holds capture; `acceptInput_outlives_mode_switch` is such a switch.
* `keys_released_unless_unlock_reported_unlocked`: with capture off no key is held in the
  game, unless a `pointerlockchange` reported "not locked" while the view was unlocked but
  capturing; `unlock_report_leaves_key_held` is that report.
-/

namespace Fxcode.GameView.Capture

open Fxcode.GameView.Input Fxcode.GameView.Mirror

variable (s : GameView)

/-! ## What one step does to the mode, the lock, capture and raw capture -/

theorem step_mode (e : Event) : (step s e).mode = match e with
    | .setMode mode => mode
    | .enterFullscreenControlingMode => ModeControling
    | _ => s.mode := by
  cases e <;> simp [step, handleMousedown, handleMouseup, handleKeydown, handleKeyup,
    handlePointerLockChange, enterFullscreenControlingMode, apply_ite GameView.mode]

theorem step_pointerLocked (e : Event) : (step s e).pointerLocked = match e with
    | .pointerlockchange locked => locked
    | _ => s.pointerLocked := by
  cases e <;> simp [step, handleMousedown, handleMouseup, handleKeydown, handleKeyup,
    handlePointerLockChange, enterFullscreenControlingMode, apply_ite GameView.pointerLocked]

theorem step_rawMouseCaptureSent (e : Event) : (step s e).rawMouseCaptureSent = match e with
    | .pointerlockchange locked =>
      if locked ≠ s.pointerLocked then locked else s.rawMouseCaptureSent
    | .enterFullscreenControlingMode => true
    | _ => s.rawMouseCaptureSent := by
  cases e <;> simp [step, handleMousedown, handleMouseup, handleKeydown, handleKeyup,
    handlePointerLockChange, enterFullscreenControlingMode, apply_ite GameView.rawMouseCaptureSent]

theorem step_acceptInput (e : Event) : (step s e).acceptInput = match e with
    | .mousedown button => if s.mode = ModeObserving ∧ isLMB button then true else s.acceptInput
    | .mouseup button => if s.mode = ModeObserving ∧ isLMB button then false else s.acceptInput
    | .pointerlockchange locked => locked
    | _ => s.acceptInput := by
  cases e <;> simp [step, handleMousedown, handleMouseup, handleKeydown, handleKeyup,
    handlePointerLockChange, enterFullscreenControlingMode, apply_ite GameView.acceptInput, apply_ite GameView.mode]

/-! ## Raw mouse capture -/

/-- Raw capture is on whenever the pointer is locked. -/
def CaptureCoversLock (s : GameView) : Prop :=
  s.pointerLocked = true → s.rawMouseCaptureSent = true

theorem captureCoversLock_step (h : CaptureCoversLock s) (e : Event) :
    CaptureCoversLock (step s e) := by
  intro hlocked
  rw [step_pointerLocked] at hlocked
  rw [step_rawMouseCaptureSent]
  cases e with
  | pointerlockchange locked =>
    subst hlocked
    dsimp only
    split_ifs with hchange
    · rfl
    · exact h (not_not.mp hchange).symm
  | enterFullscreenControlingMode => rfl
  | _ => exact h hlocked

/-- Only `enterFullscreenControlingMode` can make raw capture and the lock disagree. -/
theorem rawCapture_agrees_step (hagree : s.rawMouseCaptureSent = s.pointerLocked) (e : Event)
    (he : e ≠ .enterFullscreenControlingMode) :
    (step s e).rawMouseCaptureSent = (step s e).pointerLocked := by
  rw [step_rawMouseCaptureSent, step_pointerLocked]
  cases e with
  | pointerlockchange locked => dsimp only; split_ifs with hchange <;> simp_all
  | enterFullscreenControlingMode => exact absurd rfl he
  | _ => exact hagree

/-- A disagreement at the end of a run goes back to an `enterFullscreenControlingMode`
that no granted lock followed, or to the start. -/
theorem rawCapture_disagreement_origin :
    ∀ (es : List Event) (s : GameView), CaptureCoversLock s →
      (run s es).rawMouseCaptureSent ≠ (run s es).pointerLocked →
      (∃ pre post, es = pre ++ .enterFullscreenControlingMode :: post ∧
        .pointerlockchange true ∉ post) ∨
      (s.rawMouseCaptureSent ≠ s.pointerLocked ∧ .pointerlockchange true ∉ es)
  | [], _, _, hdiffer => .inr ⟨hdiffer, List.not_mem_nil _⟩
  | e :: es, s, hcovers, hdiffer => by
    rcases rawCapture_disagreement_origin es (step s e) (captureCoversLock_step s hcovers e)
      hdiffer with ⟨pre, post, rfl, hpost⟩ | ⟨hdiffer', hnot⟩
    · exact .inl ⟨e :: pre, post, rfl, hpost⟩
    · by_cases he : e = .enterFullscreenControlingMode
      · exact .inl ⟨[], es, by rw [he]; rfl, hnot⟩
      · refine .inr ⟨fun hagree => hdiffer' (rawCapture_agrees_step s hagree e he), ?_⟩
        rintro (_ | ⟨_, hmem⟩)
        · have hlocked : (step s (.pointerlockchange true)).pointerLocked = true := by
            rw [step_pointerLocked]
          exact hdiffer' (by
            rw [hlocked, captureCoversLock_step s hcovers _ hlocked])
        · exact hnot hmem

/-- `enterFullscreenControlingMode` on a fresh view: raw capture is on, the pointer is not
locked, and it stays so until the browser grants the lock. -/
theorem enterFullscreenControlingMode_captures_unlocked :
    (run initial [.enterFullscreenControlingMode]).rawMouseCaptureSent ≠
      (run initial [.enterFullscreenControlingMode]).pointerLocked := by
  decide

/-- In every state a run reaches, raw capture is on whenever the pointer is locked; and
when the two disagree, the pointer is unlocked with raw capture on after a call of
`enterFullscreenControlingMode` that no `pointerlockchange` granting the lock followed. -/
theorem rawMouseCapture_follows_lock (es : List Event) :
    ((run initial es).pointerLocked = true → (run initial es).rawMouseCaptureSent = true) ∧
    ((run initial es).rawMouseCaptureSent ≠ (run initial es).pointerLocked →
      ∃ pre post, es = pre ++ .enterFullscreenControlingMode :: post ∧
        .pointerlockchange true ∉ post) :=
  ⟨run_induction captureCoversLock_step es fun h => absurd h Bool.false_ne_true,
    fun hdiffer => (rawCapture_disagreement_origin es initial
      (fun h => absurd h Bool.false_ne_true) hdiffer).resolve_right fun h => h.1 rfl⟩

/-! ## Who owns input capture -/

/-- Whether the latest left-button event delivered to the view, after `e`, is a press. -/
def leftHeldAfter (held : Bool) : Event → Bool
  | .mousedown 0 => true
  | .mouseup 0 => false
  | _ => held

/-- Whether the latest left-button event of a run is a press. -/
def leftHeld (es : List Event) : Bool := es.foldl leftHeldAfter false

/-- Input capture is owned: by the pointer lock, or, in observing mode, by the left button
held on the view. -/
def CaptureOwned (s : GameView) (held : Bool) : Prop :=
  s.acceptInput = true → s.pointerLocked = true ∨ (held = true ∧ s.mode = ModeObserving)

/-- A step that leaves observing mode (a mode setter call with another mode, or
`enterFullscreenControlingMode`) while the left button, not the lock, holds capture. -/
def leavesObservingUnderHold (s : GameView) : Event → Bool
  | .setMode mode => mode ≠ ModeObserving && s.acceptInput && !s.pointerLocked
  | .enterFullscreenControlingMode => s.acceptInput && !s.pointerLocked
  | _ => false

theorem captureOwned_step (held : Bool) (h : CaptureOwned s held) (e : Event)
    (hleave : leavesObservingUnderHold s e = false) :
    CaptureOwned (step s e) (leftHeldAfter held e) := by
  intro haccept
  rw [step_acceptInput] at haccept
  rw [step_pointerLocked, step_mode]
  cases e with
  | mousedown button =>
    dsimp only at haccept ⊢
    by_cases hpress : s.mode = ModeObserving ∧ isLMB button
    · obtain ⟨hmode, rfl⟩ := hpress
      exact .inr ⟨rfl, hmode⟩
    · rw [if_neg hpress] at haccept
      rcases h haccept with hlocked | ⟨hheld, hmode⟩
      · exact .inl hlocked
      · have hbutton : button ≠ 0 := fun hzero => hpress ⟨hmode, hzero⟩
        simp [leftHeldAfter, hbutton, hheld, hmode]
  | mouseup button =>
    dsimp only at haccept ⊢
    by_cases hrelease : s.mode = ModeObserving ∧ isLMB button
    · rw [if_pos hrelease] at haccept
      exact absurd haccept Bool.false_ne_true
    · rw [if_neg hrelease] at haccept
      rcases h haccept with hlocked | ⟨hheld, hmode⟩
      · exact .inl hlocked
      · have hbutton : button ≠ 0 := fun hzero => hrelease ⟨hmode, hzero⟩
        simp [leftHeldAfter, hbutton, hheld, hmode]
  | pointerlockchange locked => exact .inl haccept
  | setMode mode =>
    dsimp only at haccept ⊢
    simp only [leavesObservingUnderHold, Bool.and_eq_false_iff, decide_eq_false_iff_not,
      not_not, Bool.not_eq_false'] at hleave
    rcases h haccept with hlocked | ⟨hheld, hmode⟩
    · exact .inl hlocked
    · rcases hleave with (hobserving | hnot) | hlocked
      · exact .inr ⟨hheld, hobserving⟩
      · exact absurd haccept (by simp [hnot])
      · exact .inl hlocked
  | enterFullscreenControlingMode =>
    dsimp only at haccept ⊢
    simp only [leavesObservingUnderHold, Bool.and_eq_false_iff, Bool.not_eq_false'] at hleave
    rcases hleave with hnot | hlocked
    · exact absurd haccept (by simp [hnot])
    · exact .inl hlocked
  | _ => exact h haccept

/-- Capture ownership is kept along every run that never leaves observing mode while the
left button holds capture. -/
theorem captureOwned_run_of :
    ∀ (es : List Event) (s : GameView) (held : Bool), CaptureOwned s held →
      respects (fun s e => !leavesObservingUnderHold s e) s es = true →
      CaptureOwned (run s es) (es.foldl leftHeldAfter held)
  | [], _, _, h, _ => h
  | e :: es, s, held, h, hrespects => by
    simp only [respects, Bool.and_eq_true, Bool.not_eq_true'] at hrespects
    exact captureOwned_run_of es _ _ (captureOwned_step s held h e hrespects.1) hrespects.2

/-- On every run that never leaves observing mode while the left button (and not the pointer
lock) holds capture, capture is on only while the pointer is locked or while the latest
left-button event delivered to the view is a press. -/
theorem acceptInput_owned_unless_mode_switched (es : List Event)
    (hswitch : respects (fun s e => !leavesObservingUnderHold s e) initial es = true) :
    (run initial es).acceptInput = true →
      (run initial es).pointerLocked = true ∨ leftHeld es = true := fun haccept =>
  ((captureOwned_run_of es initial false (fun h => absurd h Bool.false_ne_true) hswitch)
    haccept).imp id And.left

/-- Observing mode, a left press and a key: the run ends with capture on, held by the press. -/
theorem acceptInput_owned_observing_press :
    respects (fun s e => !leavesObservingUnderHold s e) initial
      [.setMode ModeObserving, .mousedown 0, .keydown 65 0 "a" false] = true ∧
    (run initial [.setMode ModeObserving, .mousedown 0, .keydown 65 0 "a" false]).acceptInput = true ∧
    ((run initial [.setMode ModeObserving, .mousedown 0, .keydown 65 0 "a" false]).acceptInput = true →
      (run initial [.setMode ModeObserving, .mousedown 0, .keydown 65 0 "a" false]).pointerLocked = true ∨
      leftHeld [.setMode ModeObserving, .mousedown 0, .keydown 65 0 "a" false] = true) :=
  ⟨by decide, by decide, acceptInput_owned_unless_mode_switched _ (by decide)⟩

/-- Observing mode, a left press (capture on), a switch to controlling mode, and the left
release: capture stays on with the pointer unlocked and the left button up, because neither
the mode setter nor a controlling-mode release clears `_acceptInput`. -/
theorem acceptInput_outlives_mode_switch :
    (run initial [.setMode ModeObserving, .mousedown 0, .setMode ModeControling, .mouseup 0]).acceptInput
      = true ∧
    (run initial [.setMode ModeObserving, .mousedown 0, .setMode ModeControling, .mouseup 0]).pointerLocked
      = false ∧
    leftHeld [.setMode ModeObserving, .mousedown 0, .setMode ModeControling, .mouseup 0] = false := by
  decide

/-! ## Keys held while capture is off -/

/-- With capture off, the game holds no key. -/
def KeysReleased (s : GameView) : Prop :=
  s.acceptInput = false → ∀ k, s.keyStateSent k = false

/-- A `pointerlockchange` reporting "not locked" while the view is unlocked but capturing
(observing mode, left button held): capture goes off without `_resetStates`. -/
def unlockReportedUnlocked (s : GameView) : Event → Bool
  | .pointerlockchange locked => !locked && !s.pointerLocked && s.acceptInput
  | _ => false

theorem keysReleased_reset (hmirror : KeyMirror s) (k : Nat) :
    (resetStates s).keyStateSent k = false := by
  simp [hmirror k]

theorem keysReleased_step (hmirror : KeyMirror s) (h : KeysReleased s) (e : Event)
    (hreport : unlockReportedUnlocked s e = false) : KeysReleased (step s e) := by
  intro hoff k
  have hreset := keysReleased_reset s hmirror k
  rw [step_acceptInput] at hoff
  cases e with
  | keydown which location key shiftKey =>
    dsimp only at hoff
    simp only [step, handleKeydown, hoff, ↓reduceIte]
    exact h hoff k
  | keyup which location =>
    dsimp only at hoff
    simp only [step, handleKeyup, hoff, ↓reduceIte]
    exact h hoff k
  | mousedown button =>
    dsimp only at hoff
    simp only [step, handleMousedown]
    split_ifs at hoff ⊢ <;> exact h hoff k
  | mouseup button =>
    dsimp only at hoff
    simp only [step, handleMouseup]
    split_ifs at hoff ⊢ <;> first | exact hreset | exact h hoff k
  | pointerlockchange locked =>
    dsimp only at hoff
    subst hoff
    simp only [unlockReportedUnlocked, Bool.not_false, Bool.true_and, Bool.and_eq_false_iff,
      Bool.not_eq_false'] at hreport
    simp only [step, handlePointerLockChange]
    split_ifs <;> first | exact hreset | exact h (hreport.resolve_left (by simp_all)) k
  | windowBlur => exact hreset
  | mousewheel | mousemove | documentMousemove _ | fullscreenchange _ | setMode _
  | enterFullscreenControlingMode | lockPointer | enterFullscreen => exact h hoff k

/-- On every run in which no `pointerlockchange` reports "not locked" while the view is
unlocked but capturing, the game holds no key whenever capture is off. -/
theorem keys_released_unless_unlock_reported_unlocked (es : List Event)
    (hreport : respects (fun s e => !unlockReportedUnlocked s e) initial es = true) :
    (run initial es).acceptInput = false → ∀ k, (run initial es).keyStateSent k = false :=
  (@run_induction_of_guard (fun s => KeyMirror s ∧ KeysReleased s) _
    (fun s h e hguard => ⟨keyMirror_step s h.1 e,
      keysReleased_step s h.1 h.2 e (by simpa using hguard)⟩)
    es initial ⟨fun _ => rfl, fun _ _ => rfl⟩ hreport).2

/-- Controlling mode, the lock granted, key 65 pressed, the lock released. -/
theorem keys_released_after_lock_round :
    respects (fun s e => !unlockReportedUnlocked s e) initial
      [.pointerlockchange true, .keydown 65 0 "a" false, .pointerlockchange false] = true ∧
    ((run initial [.pointerlockchange true, .keydown 65 0 "a" false,
        .pointerlockchange false]).acceptInput = false →
      ∀ k, (run initial [.pointerlockchange true, .keydown 65 0 "a" false,
        .pointerlockchange false]).keyStateSent k = false) :=
  ⟨by decide, keys_released_unless_unlock_reported_unlocked _ (by decide)⟩

/-- Observing mode, a left press (capture on), key 65 pressed, then a `pointerlockchange`
that reports no lock on the view (another element took the lock, say): capture goes off,
but `_resetStates` runs only when the view was locked before, so key 65 stays held in the
game and its keyup is ignored. -/
theorem unlock_report_leaves_key_held :
    (run initial [.setMode ModeObserving, .mousedown 0, .keydown 65 0 "a" false,
      .pointerlockchange false]).acceptInput = false ∧
    (run initial [.setMode ModeObserving, .mousedown 0, .keydown 65 0 "a" false,
      .pointerlockchange false]).keyStateSent 65 = true := by
  decide

end Fxcode.GameView.Capture
