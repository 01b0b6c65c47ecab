import Mathlib.Logic.Function.Basic
/-!
# The game-view input adapter

`GameView` (a custom element) forwards the browser's keyboard and mouse events to the
game through global bridge functions: `setKeyState`, `setMouseButtonState`,
`setRawMouseCapture` and `setInputChar`.  The game only ever sees the last value each
of them received, so the model keeps, next to the component's own fields, that last
value per argument.  Every delivered event and every API call is one `step`.

WebGL drawing, the hint element, the dispatched `CustomEvent`s and the browser requests
(`requestPointerLock`, `exitPointerLock`, `requestFullscreen`, `exitFullscreen`) change
nothing a handler reads: a request is answered, if ever, by a later `pointerlockchange`
or `fullscreenchange` event, and those events are steps of their own.
-/

namespace Fxcode.GameView.Input

/-- `GameView.ModeControling`: the view captures all input and locks the pointer. -/
def ModeControling : Nat := 0

/-- `GameView.ModeObserving`: the view captures input while the left button is held on it. -/
def ModeObserving : Nat := 1

/-- `mapMouseButton`: the DOM numbers the right button 2 and the middle one 1, the game
the other way round. -/
def mapMouseButton (button : Nat) : Nat :=
  if button = 2 then 1 else if button = 1 then 2 else button

/-- `mapKey`: left and right Alt, Ctrl and Shift get distinct virtual-key codes. -/
def mapKey (which location : Nat) : Nat :=
  if which = 18 then (if location = 1 then 0xA4 else 0xA5)
  else if which = 17 then (if location = 1 then 0xA2 else 0xA3)
  else if which = 16 then (if location = 1 then 0xA0 else 0xA1)
  else which

/-- `isLMB`. -/
def isLMB (button : Nat) : Prop := button = 0

instance (button : Nat) : Decidable (isLMB button) := inferInstanceAs (Decidable (button = 0))

/-- JavaScript's `String.prototype.length`: UTF-16 code units. -/
def utf16Length (s : String) : Nat :=
  s.toList.foldr (fun c n => (if c.val < 0x10000 then 1 else 2) + n) 0

/-- What `setInputChar` was given: a text, or (for named keys) the key's `which` code. -/
inductive InputChar
  | text (s : String)
  | code (which : Nat)
  deriving DecidableEq, Repr

/-- A game view together with what the game has been told.  The first six fields are
the component's (`_mode`, `_keysState`, `_buttonsState`, `_acceptInput`, `_pointerLocked`,
`_fullscreenActive`; an array hole reads as `false`).  The last four are the last value
each bridge function received for each argument, `false` or `none` if it never did. -/
structure GameView where
  mode : Nat := ModeControling
  keysState : Nat → Bool := fun _ => false
  buttonsState : Nat → Bool := fun _ => false
  acceptInput : Bool := false
  pointerLocked : Bool := false
  fullscreenActive : Bool := false
  keyStateSent : Nat → Bool := fun _ => false
  mouseButtonStateSent : Nat → Bool := fun _ => false
  rawMouseCaptureSent : Bool := false
  inputCharSent : Option InputChar := none

/-- A freshly constructed view, before any event. -/
def initial : GameView := {}

/-- The DOM events the view listens to, and the API calls that change it. -/
inductive Event
  | mousedown (button : Nat)
  | mouseup (button : Nat)
  | mousewheel
  | mousemove
  | documentMousemove (onView : Bool)
  | keydown (which location : Nat) (key : String) (shiftKey : Bool)
  | keyup (which location : Nat)
  | pointerlockchange (lockedToView : Bool)
  | fullscreenchange (fullscreenOnView : Bool)
  | windowBlur
  | setMode (mode : Nat)
  | enterFullscreenControlingMode
  | lockPointer
  | enterFullscreen

variable (s : GameView) (vk button : Nat) (down : Bool)

/-- `_resetStates`: clears the input char, then releases every held key and every held
button, each by its index in the component's array. -/
def resetStates : GameView :=
  { s with
    inputCharSent := some (.text "\x00")
    keysState := fun _ => false
    keyStateSent := fun k => if s.keysState k then false else s.keyStateSent k
    buttonsState := fun _ => false
    mouseButtonStateSent := fun b => if s.buttonsState b then false else s.mouseButtonStateSent b }

@[simp] theorem resetStates_keysState : (resetStates s).keysState = fun _ => false := rfl
@[simp] theorem resetStates_keyStateSent :
    (resetStates s).keyStateSent = fun k => if s.keysState k then false else s.keyStateSent k :=
  rfl
@[simp] theorem resetStates_buttonsState : (resetStates s).buttonsState = fun _ => false := rfl
@[simp] theorem resetStates_mouseButtonStateSent :
    (resetStates s).mouseButtonStateSent =
      fun b => if s.buttonsState b then false else s.mouseButtonStateSent b := rfl
@[simp] theorem resetStates_mode : (resetStates s).mode = s.mode := rfl
@[simp] theorem resetStates_acceptInput : (resetStates s).acceptInput = s.acceptInput := rfl
@[simp] theorem resetStates_pointerLocked : (resetStates s).pointerLocked = s.pointerLocked := rfl
@[simp] theorem resetStates_rawMouseCaptureSent :
    (resetStates s).rawMouseCaptureSent = s.rawMouseCaptureSent := rfl

/-- Records button `button` as `down` and sends it to the game under its mapped code. -/
def passButton : GameView :=
  { s with
    buttonsState := Function.update s.buttonsState button down
    mouseButtonStateSent := Function.update s.mouseButtonStateSent (mapMouseButton button) down }

@[simp] theorem passButton_keysState : (passButton s button down).keysState = s.keysState := rfl
@[simp] theorem passButton_keyStateSent :
    (passButton s button down).keyStateSent = s.keyStateSent := rfl
@[simp] theorem passButton_buttonsState :
    (passButton s button down).buttonsState = Function.update s.buttonsState button down := rfl
@[simp] theorem passButton_mouseButtonStateSent :
    (passButton s button down).mouseButtonStateSent =
      Function.update s.mouseButtonStateSent (mapMouseButton button) down := rfl
@[simp] theorem passButton_mode : (passButton s button down).mode = s.mode := rfl
@[simp] theorem passButton_acceptInput :
    (passButton s button down).acceptInput = s.acceptInput := rfl
@[simp] theorem passButton_pointerLocked :
    (passButton s button down).pointerLocked = s.pointerLocked := rfl
@[simp] theorem passButton_rawMouseCaptureSent :
    (passButton s button down).rawMouseCaptureSent = s.rawMouseCaptureSent := rfl

/-- Records key `vk` as `down` and sends it to the game. -/
def passKey : GameView :=
  { s with
    keysState := Function.update s.keysState vk down
    keyStateSent := Function.update s.keyStateSent vk down }

@[simp] theorem passKey_keysState :
    (passKey s vk down).keysState = Function.update s.keysState vk down := rfl
@[simp] theorem passKey_keyStateSent :
    (passKey s vk down).keyStateSent = Function.update s.keyStateSent vk down := rfl
@[simp] theorem passKey_buttonsState : (passKey s vk down).buttonsState = s.buttonsState := rfl
@[simp] theorem passKey_mouseButtonStateSent :
    (passKey s vk down).mouseButtonStateSent = s.mouseButtonStateSent := rfl
@[simp] theorem passKey_mode : (passKey s vk down).mode = s.mode := rfl
@[simp] theorem passKey_acceptInput : (passKey s vk down).acceptInput = s.acceptInput := rfl
@[simp] theorem passKey_pointerLocked : (passKey s vk down).pointerLocked = s.pointerLocked := rfl
@[simp] theorem passKey_rawMouseCaptureSent :
    (passKey s vk down).rawMouseCaptureSent = s.rawMouseCaptureSent := rfl

/-- `_handleMousedown`.  In controlling mode a left press on an unlocked view only asks
for the pointer lock. -/
def handleMousedown : GameView :=
  let s := if s.mode = ModeObserving ∧ isLMB button then { s with acceptInput := true } else s
  if s.mode = ModeControling then
    if s.pointerLocked = false ∧ isLMB button then s else passButton s button true
  else s

/-- `_handleMouseup`. -/
def handleMouseup : GameView :=
  let s := if s.mode = ModeObserving ∧ isLMB button then
    resetStates { s with acceptInput := false } else s
  if s.mode = ModeControling then passButton s button false else s

/-- What `_handleKeydown` passes to `setInputChar`, if anything: the key itself when it is
one character, its `which` code when it is a longer name, nothing for a two-unit key. -/
def keydownInputChar (which : Nat) (key : String) : Option InputChar :=
  if utf16Length key = 1 then some (.text key)
  else if utf16Length key > 2 then some (.code which)
  else none

/-- `_handleKeydown`.  Shift+Escape only asks to leave fullscreen and pointer lock. -/
def handleKeydown (which location : Nat) (key : String) (shiftKey : Bool) : GameView :=
  if s.acceptInput = false then s
  else if key = "Escape" ∧ shiftKey = true then s
  else if s.keysState (mapKey which location) then s
  else
    let s := passKey s (mapKey which location) true
    { s with inputCharSent := keydownInputChar which key <|> s.inputCharSent }

/-- `_handleKeyup`. -/
def handleKeyup (which location : Nat) : GameView :=
  if s.acceptInput = false then s
  else { passKey s (mapKey which location) false with inputCharSent := some (.text "\x00") }

/-- `_handlePointerLockChange`; `pointerLocked` is `document.pointerLockElement === this`. -/
def handlePointerLockChange (pointerLocked : Bool) : GameView :=
  let wasPointerLocked := s.pointerLocked
  let s := { s with pointerLocked := pointerLocked, acceptInput := pointerLocked }
  let s := if pointerLocked ≠ wasPointerLocked then
    { s with rawMouseCaptureSent := pointerLocked } else s
  if pointerLocked = false ∧ wasPointerLocked = true then resetStates s else s

/-- `enterFullscreenControlingMode`: switches mode and turns raw capture on at once,
before the pointer-lock and fullscreen requests are answered. -/
def enterFullscreenControlingMode : GameView :=
  { s with mode := ModeControling, rawMouseCaptureSent := true }

/-- One delivered event or API call. -/
def step : Event → GameView
  | .mousedown button => handleMousedown s button
  | .mouseup button => handleMouseup s button
  | .mousewheel => s
  | .mousemove => s
  | .documentMousemove _ => s
  | .keydown which location key shiftKey => handleKeydown s which location key shiftKey
  | .keyup which location => handleKeyup s which location
  | .pointerlockchange locked => handlePointerLockChange s locked
  | .fullscreenchange active => { s with fullscreenActive := active }
  | .windowBlur => resetStates s
  | .setMode mode => { s with mode := mode }
  | .enterFullscreenControlingMode => enterFullscreenControlingMode s
  | .lockPointer => s
  | .enterFullscreen => s

/-- The view after a sequence of events. -/
def run (es : List Event) : GameView := es.foldl step s

@[simp] theorem run_nil : run s [] = s := rfl

@[simp] theorem run_cons (e : Event) (es : List Event) :
    run s (e :: es) = run (step s e) es := rfl

/-- Whether every step of the run from `s` is allowed by `guard` in the state it is
taken in. -/
def respects (guard : GameView → Event → Bool) : GameView → List Event → Bool
  | _, [] => true
  | s, e :: es => guard s e && respects guard (step s e) es

/-- A property kept by every step a guard allows holds after every run whose steps the
guard allows. -/
theorem run_induction_of_guard {P : GameView → Prop} {guard : GameView → Event → Bool}
    (hstep : ∀ s, P s → ∀ e, guard s e = true → P (step s e)) :
    ∀ (es : List Event) {s : GameView}, P s → respects guard s es = true → P (run s es)
  | [], _, h, _ => h
  | e :: es, s, h, hg => by
    simp only [respects, Bool.and_eq_true] at hg
    exact run_induction_of_guard hstep es (hstep s h e hg.1) hg.2

variable {s} in
/-- A property every step keeps holds after every run. -/
theorem run_induction {P : GameView → Prop} (hstep : ∀ s, P s → ∀ e, P (step s e))
    (es : List Event) (h : P s) : P (run s es) := by
  refine @run_induction_of_guard P (fun _ _ => true) (fun s hs e _ => hstep s hs e) es s h ?_
  induction es generalizing s <;> simp_all [respects]

end Fxcode.GameView.Input
