import Fxcode.GameView.Capture
/-!
# The game view as a DOM element

`GameView` is a custom element.  `connectedCallback` adds its ten event listeners and starts
the render loop; `disconnectedCallback` removes them and stops it.  A handler that runs
updates the input state that `Input.step` models, and beside it the element dispatches
`modechange` and `pointerlockchange` events, shows or hides its hint, and asks the browser for
the pointer lock, fullscreen, or their release.  The render loop is `drawRoutine`: draw, then
request the next animation frame.

The browser is modelled as far as the element reads it: the listener list, where
`addEventListener` appends an entry unless an equal one is there and `removeEventListener`
drops the equal one; and the animation-frame callbacks it holds, each of which runs at the
next frame unless cancelled first.

* `view_run`: the element's input state after any run is `Input.run` of the events its
  handlers received: every API call, and the DOM events that arrived while it was connected;
* `render_loop_single`: the browser holds at most one animation-frame callback of the view,
  the one `animationFrame` names, so a frame draws once while rendering runs and never while
  it is paused;
* `lock_events_alternate`: the hint shows exactly while the view counts itself locked, its
  `pointerlockchange` events report lock and unlock alternately from a lock, and its latest
  `modechange` event carries its mode.
-/

namespace Fxcode.GameView.Element

open Fxcode.GameView.Input Fxcode.GameView.Capture

/-! ## Listeners -/

/-- Where a listener is registered. -/
inductive Target
  | view
  | document
  | window
  deriving DecidableEq, Repr

/-- The handlers `_createHandlers` creates once, in the constructor. -/
inductive Handler
  | mousedown
  | mouseup
  | mousemove
  | mousewheel
  | keydown
  | keyup
  | pointerLockChange
  | fullscreenChange
  | documentMouseMove
  | windowBlur
  deriving DecidableEq, Repr

/-- An entry of a listener list: an event type, a callback and the capture flag, on a target. -/
structure Listener where
  target : Target
  type : String
  handler : Handler
  capture : Bool
  deriving DecidableEq, Repr

/-- The listeners `_addEventListeners` adds, in order. -/
def addedListeners : List Listener :=
  [⟨.view, "mousedown", .mousedown, false⟩, ⟨.view, "mouseup", .mouseup, false⟩,
    ⟨.view, "mousemove", .mousemove, false⟩, ⟨.view, "mousewheel", .mousewheel, false⟩,
    ⟨.document, "keydown", .keydown, true⟩, ⟨.document, "keyup", .keyup, true⟩,
    ⟨.document, "pointerlockchange", .pointerLockChange, false⟩,
    ⟨.document, "fullscreenchange", .fullscreenChange, false⟩,
    ⟨.document, "mousemove", .documentMouseMove, false⟩, ⟨.window, "blur", .windowBlur, false⟩]

/-- The listeners `_removeEventListeners` removes, in order. -/
def removedListeners : List Listener :=
  [⟨.view, "mousedown", .mousedown, false⟩, ⟨.view, "mouseup", .mouseup, false⟩,
    ⟨.view, "mousemove", .mousemove, false⟩, ⟨.view, "mousewheel", .mousewheel, false⟩,
    ⟨.document, "keydown", .keydown, true⟩, ⟨.document, "keyup", .keyup, true⟩,
    ⟨.document, "pointerlockchange", .pointerLockChange, false⟩,
    ⟨.document, "fullscreenchange", .fullscreenChange, false⟩,
    ⟨.document, "mousemove", .documentMouseMove, false⟩, ⟨.window, "blur", .windowBlur, false⟩]

/-- `addEventListener`: the entry is appended unless an equal one is registered. -/
def addEventListener (listeners : List Listener) (listener : Listener) : List Listener :=
  if listener ∈ listeners then listeners else listeners ++ [listener]

/-- `removeEventListener`: the equal entry is dropped. -/
def removeEventListener (listeners : List Listener) (listener : Listener) : List Listener :=
  listeners.filter (· ≠ listener)

/-- `_addEventListeners`. -/
def addEventListeners (listeners : List Listener) : List Listener :=
  addedListeners.foldl addEventListener listeners

/-- `_removeEventListeners`. -/
def removeEventListeners (listeners : List Listener) : List Listener :=
  removedListeners.foldl removeEventListener listeners

/-- The registration through which a DOM event reaches its handler; none for an API call. -/
def listenerFor : Event → Option Listener
  | .mousedown _ => some ⟨.view, "mousedown", .mousedown, false⟩
  | .mouseup _ => some ⟨.view, "mouseup", .mouseup, false⟩
  | .mousemove => some ⟨.view, "mousemove", .mousemove, false⟩
  | .mousewheel => some ⟨.view, "mousewheel", .mousewheel, false⟩
  | .keydown .. => some ⟨.document, "keydown", .keydown, true⟩
  | .keyup .. => some ⟨.document, "keyup", .keyup, true⟩
  | .pointerlockchange _ => some ⟨.document, "pointerlockchange", .pointerLockChange, false⟩
  | .fullscreenchange _ => some ⟨.document, "fullscreenchange", .fullscreenChange, false⟩
  | .documentMousemove _ => some ⟨.document, "mousemove", .documentMouseMove, false⟩
  | .windowBlur => some ⟨.window, "blur", .windowBlur, false⟩
  | _ => none

/-- Whether the element's handler runs: always for an API call, and for a DOM event when its
registration is in the listener list. -/
def received (listeners : List Listener) (e : Event) : Bool :=
  match listenerFor e with
  | none => true
  | some listener => listener ∈ listeners

/-! ## The render loop -/

/-- `animationFrame`, and the animation-frame callbacks of the view the browser holds, by handle. -/
structure RenderLoop where
  animationFrame : Option Nat := none
  scheduled : List Nat := []
  /-- The handle the next `requestAnimationFrame` returns. -/
  nextHandle : Nat := 1
  /-- The calls of `gameView.draw()` so far. -/
  draws : Nat := 0
  deriving DecidableEq, Repr

/-- `drawRoutine`: draw, then request the next animation frame. -/
def drawRoutine (r : RenderLoop) : RenderLoop :=
  { animationFrame := some r.nextHandle, scheduled := r.scheduled ++ [r.nextHandle],
    nextHandle := r.nextHandle + 1, draws := r.draws + 1 }

/-- `pauseRendering`: cancel the requested frame, if any. -/
def pauseRendering (r : RenderLoop) : RenderLoop :=
  match r.animationFrame with
  | some handle => { r with scheduled := r.scheduled.erase handle, animationFrame := none }
  | none => r

/-- `unpauseRendering`: start the loop unless a frame is requested. -/
def unpauseRendering (r : RenderLoop) : RenderLoop :=
  if r.animationFrame = none then drawRoutine r else r

/-- An animation frame: each callback held when it starts runs, unless cancelled by then. -/
def runFrame (r : RenderLoop) : RenderLoop :=
  r.scheduled.foldl (fun r handle =>
    if handle ∈ r.scheduled then drawRoutine { r with scheduled := r.scheduled.erase handle } else r) r

/-! ## The element -/

/-- An event the element dispatches. -/
inductive ViewEvent
  | modechange (mode : Nat)
  | pointerlockchange (locked : Bool)
  deriving DecidableEq, Repr

/-- A request to the browser. -/
inductive Request
  | pointerLock
  | fullscreen
  | exitPointerLock
  | exitFullscreen
  deriving DecidableEq, Repr

/-- The element: its input state, its registrations, its render loop, whether the hint has the
`active` class, the events it dispatched and the requests it made. -/
structure ViewElement where
  view : GameView := {}
  listeners : List Listener := []
  render : RenderLoop := {}
  hintActive : Bool := false
  dispatched : List ViewEvent := []
  requests : List Request := []

/-- A freshly constructed element, not yet connected. -/
def initial : ViewElement := {}

/-- Appends a request. -/
def request (el : ViewElement) (r : Request) : ViewElement := { el with requests := el.requests ++ [r] }

/-- What a handler or an API call does besides the input state `Input.step` models, read off the
state before it. -/
def effects (el : ViewElement) : Event → ViewElement
  | .mousedown button =>
    if el.view.mode = ModeControling ∧ el.view.pointerLocked = false ∧ isLMB button then
      request el .pointerLock
    else el
  | .keydown _ _ key shiftKey =>
    if el.view.acceptInput = true ∧ key = "Escape" ∧ shiftKey = true then
      let el' := if el.view.fullscreenActive then request el .exitFullscreen else el
      if el.view.pointerLocked then request el' .exitPointerLock else el'
    else el
  | .documentMousemove onView =>
    if el.view.pointerLocked = true ∧ onView = false then request el .exitPointerLock else el
  | .pointerlockchange locked =>
    if locked ≠ el.view.pointerLocked then
      { el with dispatched := el.dispatched ++ [.pointerlockchange locked], hintActive := locked }
    else el
  | .setMode mode => { el with dispatched := el.dispatched ++ [.modechange mode] }
  | .enterFullscreenControlingMode =>
    { el with
      dispatched := el.dispatched ++ [.modechange ModeControling]
      requests := el.requests ++ [.pointerLock, .fullscreen] }
  | .lockPointer => if el.view.mode = ModeControling then request el .pointerLock else el
  | .enterFullscreen => if el.view.mode = ModeControling then request el .fullscreen else el
  | _ => el

/-- A handler or an API call that runs. -/
def handle (el : ViewElement) (e : Event) : ViewElement := { effects el e with view := step el.view e }

/-- What happens to the element. -/
inductive ElementEvent
  /-- `connectedCallback`. -/
  | connected
  /-- `disconnectedCallback`. -/
  | disconnected
  | pauseRendering
  | unpauseRendering
  /-- The browser's next animation frame. -/
  | animationFrame
  /-- A DOM event or an API call of `Input.Event`. -/
  | input (e : Event)

/-- One event. -/
def elementStep (el : ViewElement) : ElementEvent → ViewElement
  | .connected =>
    { el with listeners := addEventListeners el.listeners, render := unpauseRendering el.render }
  | .disconnected =>
    { el with listeners := removeEventListeners el.listeners, render := pauseRendering el.render }
  | .pauseRendering => { el with render := pauseRendering el.render }
  | .unpauseRendering => { el with render := unpauseRendering el.render }
  | .animationFrame => { el with render := runFrame el.render }
  | .input e => if received el.listeners e then handle el e else el

/-- The element after a sequence of events. -/
def elementRun (el : ViewElement) (evs : List ElementEvent) : ViewElement := evs.foldl elementStep el

/-! ## Registrations: all or none -/

/-- The listener list holds the view's registrations all or none. -/
def Registered (listeners : List Listener) : Prop := listeners = [] ∨ listeners = addedListeners

/-- `_removeEventListeners` names every registration `_addEventListeners` made, with the same
capture flag, so connecting registers all of them and disconnecting drops all of them. -/
theorem addEventListeners_of_registered {listeners : List Listener} (h : Registered listeners) :
    addEventListeners listeners = addedListeners := by
  rcases h with rfl | rfl <;> rfl

theorem removeEventListeners_of_registered {listeners : List Listener} (h : Registered listeners) :
    removeEventListeners listeners = [] := by
  rcases h with rfl | rfl <;> rfl

theorem addedListeners_ne_nil : addedListeners ≠ [] := List.cons_ne_nil _ _

/-- A DOM event reaches its handler exactly while the registrations are in place. -/
theorem received_of_registered {listeners : List Listener} (h : Registered listeners) (e : Event) :
    received listeners e = ((listenerFor e).isNone || decide (listeners = addedListeners)) := by
  rcases h with rfl | rfl <;> cases e <;> rfl

/-- A handler touches only the hint, the dispatched events and the requests. -/
theorem effects_eq (el : ViewElement) (e : Event) : effects el e =
    { el with
      hintActive := (effects el e).hintActive
      dispatched := (effects el e).dispatched
      requests := (effects el e).requests } := by
  cases e <;> dsimp only [effects, request] <;> split_ifs <;> rfl

@[simp] theorem effects_view (el : ViewElement) (e : Event) : (effects el e).view = el.view := by
  rw [effects_eq]

@[simp] theorem effects_listeners (el : ViewElement) (e : Event) : (effects el e).listeners = el.listeners := by
  rw [effects_eq]

@[simp] theorem effects_render (el : ViewElement) (e : Event) : (effects el e).render = el.render := by
  rw [effects_eq]

/-- The events a handler dispatches: a `pointerlockchange` when the lock changes, a
`modechange` on a mode switch. -/
theorem effects_dispatched (el : ViewElement) (e : Event) : (effects el e).dispatched = el.dispatched ++
    match e with
    | .pointerlockchange locked => if locked ≠ el.view.pointerLocked then [.pointerlockchange locked] else []
    | .setMode mode => [.modechange mode]
    | .enterFullscreenControlingMode => [.modechange ModeControling]
    | _ => [] := by
  cases e
  case pointerlockchange locked => by_cases h : locked = el.view.pointerLocked <;> simp [effects, h]
  all_goals simp [effects, request, apply_ite ViewElement.dispatched]

theorem effects_hintActive (el : ViewElement) (e : Event) : (effects el e).hintActive = match e with
    | .pointerlockchange locked => if locked ≠ el.view.pointerLocked then locked else el.hintActive
    | _ => el.hintActive := by
  cases e <;> simp [effects, request, apply_ite ViewElement.hintActive]

@[simp] theorem handle_view (el : ViewElement) (e : Event) : (handle el e).view = step el.view e := rfl

@[simp] theorem handle_hintActive (el : ViewElement) (e : Event) : (handle el e).hintActive = (effects el e).hintActive := rfl

@[simp] theorem handle_dispatched (el : ViewElement) (e : Event) : (handle el e).dispatched = (effects el e).dispatched := rfl

theorem registered_elementStep {el : ViewElement} (h : Registered el.listeners) (ev : ElementEvent) :
    Registered (elementStep el ev).listeners := by
  cases ev with
  | connected =>
    dsimp only [elementStep]
    exact .inr (addEventListeners_of_registered h)
  | disconnected =>
    dsimp only [elementStep]
    exact .inl (removeEventListeners_of_registered h)
  | input e =>
    simp only [elementStep]
    split_ifs
    · simpa [handle] using h
    · exact h
  | _ => exact h

/-! ## The input state follows the input model -/

/-- The events whose handlers run, in a run that starts connected or not: the API calls, and
the DOM events that arrive after a `connectedCallback` and before the next
`disconnectedCallback`. -/
def receivedEvents : Bool → List ElementEvent → List Event
  | _, [] => []
  | _, .connected :: evs => receivedEvents true evs
  | _, .disconnected :: evs => receivedEvents false evs
  | connected, .input e :: evs =>
    if (listenerFor e).isNone || connected then e :: receivedEvents connected evs
    else receivedEvents connected evs
  | connected, _ :: evs => receivedEvents connected evs

theorem view_elementRun : ∀ (evs : List ElementEvent) (el : ViewElement), Registered el.listeners →
    (elementRun el evs).view = run el.view (receivedEvents (decide (el.listeners = addedListeners)) evs)
  | [], _, _ => rfl
  | ev :: evs, el, h => by
    have hnext := view_elementRun evs (elementStep el ev) (registered_elementStep h ev)
    rw [elementRun, List.foldl_cons] at *
    rw [hnext]
    cases ev with
    | connected => simp [elementStep, receivedEvents, addEventListeners_of_registered h]
    | disconnected =>
      simp [elementStep, receivedEvents, removeEventListeners_of_registered h, addedListeners_ne_nil]
    | input e =>
      simp only [elementStep, received_of_registered h, receivedEvents]
      split_ifs <;> simp [handle]
    | _ => rfl

/-- After any run of lifecycle callbacks, rendering calls, animation frames, DOM events and API
calls, the element's input state is the input model's state after the events its handlers
received: every API call, and each DOM event that arrived while it was connected. -/
theorem view_run (evs : List ElementEvent) :
    (elementRun initial evs).view = run Input.initial (receivedEvents false evs) := by
  have h := view_elementRun evs initial (.inl rfl)
  rwa [show decide (initial.listeners = addedListeners) = false from
    decide_eq_false (Ne.symm addedListeners_ne_nil)] at h

/-! ## The render loop never runs twice -/

/-- The browser holds exactly the callback `animationFrame` names, and no other. -/
def SingleFrame (r : RenderLoop) : Prop := r.scheduled = r.animationFrame.toList

theorem drawRoutine_single {r : RenderLoop} (h : r.scheduled = []) : SingleFrame (drawRoutine r) := by
  simp [SingleFrame, drawRoutine, h]

theorem pauseRendering_single {r : RenderLoop} (h : SingleFrame r) :
    SingleFrame (pauseRendering r) ∧ (pauseRendering r).animationFrame = none := by
  unfold SingleFrame at h
  unfold pauseRendering
  split <;> simp_all [SingleFrame]

theorem unpauseRendering_single {r : RenderLoop} (h : SingleFrame r) :
    SingleFrame (unpauseRendering r) ∧ (unpauseRendering r).animationFrame.isSome := by
  unfold unpauseRendering
  split_ifs with hnone
  · exact ⟨drawRoutine_single (by simpa [SingleFrame, hnone] using h), rfl⟩
  · exact ⟨h, Option.ne_none_iff_isSome.mp hnone⟩

/-- An animation frame runs `drawRoutine` once if a frame was requested, and not at all if
rendering is paused; either way one frame stays requested or none. -/
theorem runFrame_single {r : RenderLoop} (h : SingleFrame r) :
    SingleFrame (runFrame r) ∧ (runFrame r).animationFrame.isSome = r.animationFrame.isSome ∧
      (runFrame r).draws = r.draws + (if r.animationFrame.isSome then 1 else 0) := by
  unfold SingleFrame at h
  unfold runFrame
  cases hframe : r.animationFrame with
  | none => simp_all [SingleFrame]
  | some handle =>
    rw [hframe] at h
    rw [h]
    simp [drawRoutine, SingleFrame, h]

/-- Whether rendering runs after a run that starts with it running or not: the latest of
`connectedCallback` and `unpauseRendering` starts it, the latest of `disconnectedCallback` and
`pauseRendering` stops it. -/
def renderingAfter : Bool → List ElementEvent → Bool
  | running, [] => running
  | _, .connected :: evs => renderingAfter true evs
  | _, .unpauseRendering :: evs => renderingAfter true evs
  | _, .disconnected :: evs => renderingAfter false evs
  | _, .pauseRendering :: evs => renderingAfter false evs
  | running, _ :: evs => renderingAfter running evs

theorem renderingAfter_cons (running : Bool) (ev : ElementEvent) (evs : List ElementEvent) :
    renderingAfter running (ev :: evs) = renderingAfter (renderingAfter running [ev]) evs := by
  cases ev <;> rfl

theorem render_elementStep {el : ViewElement} (h : SingleFrame el.render) (ev : ElementEvent) :
    SingleFrame (elementStep el ev).render ∧
      (elementStep el ev).render.animationFrame.isSome = renderingAfter el.render.animationFrame.isSome [ev] := by
  cases ev with
  | connected => exact unpauseRendering_single h
  | unpauseRendering => exact unpauseRendering_single h
  | disconnected => simpa [elementStep, renderingAfter] using pauseRendering_single h
  | pauseRendering => simpa [elementStep, renderingAfter] using pauseRendering_single h
  | animationFrame => exact ⟨(runFrame_single h).1, (runFrame_single h).2.1⟩
  | input e =>
    simp only [elementStep]
    split_ifs
    · simpa [handle] using ⟨h, rfl⟩
    · exact ⟨h, rfl⟩

theorem render_elementRun : ∀ (evs : List ElementEvent) (el : ViewElement), SingleFrame el.render →
    SingleFrame (elementRun el evs).render ∧
      (elementRun el evs).render.animationFrame.isSome = renderingAfter el.render.animationFrame.isSome evs
  | [], _, h => ⟨h, rfl⟩
  | ev :: evs, el, h => by
    obtain ⟨hsingle, hrunning⟩ := render_elementStep h ev
    rw [renderingAfter_cons, ← hrunning]
    exact render_elementRun evs (elementStep el ev) hsingle

/-- On every run of lifecycle callbacks, rendering calls, animation frames, DOM events and API
calls, the browser holds at most one animation-frame callback of the view, the one
`animationFrame` names; a frame is requested exactly while the latest of `connectedCallback`,
`unpauseRendering`, `disconnectedCallback` and `pauseRendering` started rendering, and the next
animation frame draws the game once then, and not at all otherwise. -/
theorem render_loop_single (evs : List ElementEvent) :
    let el := elementRun initial evs
    el.render.scheduled = el.render.animationFrame.toList ∧
      el.render.animationFrame.isSome = renderingAfter false evs ∧
      (elementStep el .animationFrame).render.draws = el.render.draws + (if renderingAfter false evs then 1 else 0) := by
  obtain ⟨hsingle, hrunning⟩ := render_elementRun evs initial rfl
  rw [show initial.render.animationFrame.isSome = false from rfl] at hrunning
  refine ⟨hsingle, hrunning, ?_⟩
  rw [← hrunning]
  exact (runFrame_single hsingle).2.2

/-! ## What the element shows and reports -/

/-- The `locked` values of the `pointerlockchange` events the element dispatched. -/
def lockEvents (dispatched : List ViewEvent) : List Bool :=
  dispatched.filterMap fun
    | .pointerlockchange locked => some locked
    | .modechange _ => none

/-- The modes of the `modechange` events the element dispatched. -/
def modeEvents (dispatched : List ViewEvent) : List Nat :=
  dispatched.filterMap fun
    | .modechange mode => some mode
    | .pointerlockchange _ => none

/-- The `locked` values of `n` events that report lock and unlock alternately from a lock. -/
def alternating (n : Nat) : List Bool := (List.range n).map fun i => i % 2 == 0

/-- What the element shows and reports agrees with its input state. -/
structure Reports (el : ViewElement) : Prop where
  /-- The hint is active exactly while the view counts itself locked. -/
  hint : el.hintActive = el.view.pointerLocked
  /-- The lock events alternate from a lock; the view is locked after an odd number. -/
  lockEvents : ∃ n, lockEvents el.dispatched = alternating n ∧ el.view.pointerLocked = (n % 2 == 1)
  /-- The latest mode event carries the mode, the initial one before any. -/
  modeEvent : (modeEvents el.dispatched).getLast?.getD ModeControling = el.view.mode

@[simp] theorem lockEvents_append (a b : List ViewEvent) :
    lockEvents (a ++ b) = lockEvents a ++ lockEvents b := List.filterMap_append _ _ _

@[simp] theorem modeEvents_append (a b : List ViewEvent) :
    modeEvents (a ++ b) = modeEvents a ++ modeEvents b := List.filterMap_append _ _ _

@[simp] theorem lockEvents_singleton (v : ViewEvent) : lockEvents [v] = match v with
    | .pointerlockchange locked => [locked]
    | .modechange _ => [] := by
  cases v <;> rfl

@[simp] theorem modeEvents_singleton (v : ViewEvent) : modeEvents [v] = match v with
    | .modechange mode => [mode]
    | .pointerlockchange _ => [] := by
  cases v <;> rfl

theorem alternating_succ {n : Nat} {locked : Bool} (h : locked ≠ (n % 2 == 1)) :
    alternating (n + 1) = alternating n ++ [locked] ∧ locked = ((n + 1) % 2 == 1) := by
  rcases Nat.mod_two_eq_zero_or_one n with hn | hn <;> cases locked <;>
    simp_all [alternating, List.range_succ, Nat.add_mod]

theorem reports_handle {el : ViewElement} (h : Reports el) (e : Event) : Reports (handle el e) := by
  obtain ⟨hhint, ⟨n, hlock, hlocked⟩, hmode⟩ := h
  cases e
  case pointerlockchange locked =>
    by_cases hchange : locked = el.view.pointerLocked
    · refine ⟨?_, ⟨n, ?_, ?_⟩, ?_⟩ <;>
        simp [effects_hintActive, effects_dispatched, step_pointerLocked, step_mode, hchange, *]
    · obtain ⟨hnext, hparity⟩ := alternating_succ (hlocked ▸ hchange)
      refine ⟨?_, ⟨n + 1, ?_, (step_pointerLocked _ _).trans hparity⟩, ?_⟩ <;>
        simp [effects_hintActive, effects_dispatched, step_pointerLocked, step_mode, hchange, hlock, hnext, hmode]
  all_goals
    refine ⟨?_, ⟨n, ?_, ?_⟩, ?_⟩ <;>
      simp [effects_hintActive, effects_dispatched, step_pointerLocked, step_mode, *]

/-- `Reports` reads only the hint, the input state and the dispatched events. -/
theorem Reports.congr {el el' : ViewElement} (h : Reports el) (hhint : el'.hintActive = el.hintActive)
    (hview : el'.view = el.view) (hdispatched : el'.dispatched = el.dispatched) : Reports el' := by
  obtain ⟨hint, lock, mode⟩ := h
  exact ⟨hhint ▸ hview ▸ hint, hview ▸ hdispatched ▸ lock, hview ▸ hdispatched ▸ mode⟩

theorem reports_elementStep {el : ViewElement} (h : Reports el) (ev : ElementEvent) :
    Reports (elementStep el ev) := by
  cases ev with
  | input e =>
    simp only [elementStep]
    split_ifs
    · exact reports_handle h e
    · exact h
  | _ => exact h.congr (by dsimp only [elementStep]) (by dsimp only [elementStep]) (by dsimp only [elementStep])

theorem reports_elementRun : ∀ (evs : List ElementEvent) (el : ViewElement), Reports el →
    Reports (elementRun el evs)
  | [], _, h => h
  | ev :: evs, el, h => reports_elementRun evs (elementStep el ev) (reports_elementStep h ev)

/-- On every run of lifecycle callbacks, rendering calls, animation frames, DOM events and API
calls, the hint is shown exactly while the view counts itself locked; the `pointerlockchange`
events the view dispatched report lock and unlock alternately, starting with a lock, and the
view counts itself locked exactly after an odd number of them; and the latest `modechange`
event carries the view's mode (the initial controlling mode before any). -/
theorem lock_events_alternate (evs : List ElementEvent) :
    let el := elementRun initial evs
    el.hintActive = el.view.pointerLocked ∧
      (∃ n, lockEvents el.dispatched = (List.range n).map (fun i => i % 2 == 0) ∧
        el.view.pointerLocked = (n % 2 == 1)) ∧
      (modeEvents el.dispatched).getLast?.getD ModeControling = el.view.mode :=
  let h := reports_elementRun evs initial ⟨rfl, ⟨0, rfl, rfl⟩, rfl⟩
  ⟨h.hint, h.lockEvents, h.modeEvent⟩

end Fxcode.GameView.Element
