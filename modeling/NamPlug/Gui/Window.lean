import Mathlib.Tactic.Common

/-!
# The window of the plugin

The lifecycle of the window (`gui/lifecycle.rs`) and the calls that drive it: the host's calls of the
GUI extension (`extensions/gui.rs`), the part of `housekeeping` that is about the window
(`plugin/main_thread/mod.rs`), and the callback of the GUI thread for a window that its user closes
(`gui/worker.rs`). The close signal is the only cell that both threads write and a call accesses it
once at most, so that each call is one step. The windowing system is a parameter.
-/

namespace NamPlug.Gui

/-! ## The lifecycle -/

inductive GuiLifecycle where
  | hidden | showRequested | active | hideRequested | destroyed
  deriving DecidableEq, Repr

inductive GuiEvent where
  | show | hide | destroy | windowReady | windowHidden | userClosed | windowFailed
  deriving DecidableEq, Repr

def ILLEGAL_TRANSITION : String := "GUI lifecycle: illegal state transition"

/-- `transition` -/
def GuiLifecycle.transition : GuiLifecycle → GuiEvent → Except String GuiLifecycle
  | showRequested, .windowReady => .ok active
  | hideRequested, .windowHidden => .ok hidden
  | hidden, .show => .ok showRequested
  | active, .hide => .ok hideRequested
  | showRequested, .hide => .ok hideRequested
  | showRequested, .userClosed => .ok hidden
  | active, .userClosed => .ok hidden
  | showRequested, .windowFailed => .ok hidden
  | _, .destroy => .ok destroyed
  | destroyed, _ => .ok destroyed
  | _, _ => .error ILLEGAL_TRANSITION

/-- A transition whose error is ignored: the state stays where it is. -/
def GuiLifecycle.tryTransition (l : GuiLifecycle) (e : GuiEvent) : GuiLifecycle :=
  match l.transition e with
  | .ok l' => l'
  | .error _ => l

/-! ## The surroundings -/

inductive GuiApiType where
  | x11 | wayland | other
  deriving DecidableEq, Repr

structure GuiConfiguration where
  apiType : GuiApiType
  isFloating : Bool
  deriving DecidableEq, Repr

/-- A window of the host; the id is what `extract_parent_x11_id` makes of it. -/
structure HostWindow where
  apiType : GuiApiType
  parentX11Id : Option UInt32
  deriving DecidableEq, Repr

inductive GuiWindowMode where
  | floating | embeddedX11
  deriving DecidableEq, Repr

/-- What the surroundings answer during a call: whether the host has the GUI extension and still takes
calls, the state of the display server, and the attempts to start the worker and to open a window. -/
structure GuiBackend where
  hostGui : Bool
  hostCalls : Bool
  isEmbeddedSupported : Bool
  display : Bool
  prepareEmbeddedX11 : UInt32 → Except String Unit
  spawnWorker : Except String Unit
  openWindow : Except String Unit

inductive HostCall where
  | closed (wasDestroyed : Bool)
  | requestCallback
  deriving DecidableEq, Repr

def GuiBackend.closed (b : GuiBackend) (wasDestroyed : Bool) : List HostCall :=
  if b.hostGui then [.closed wasDestroyed] else []

/-! ## The calls -/

structure GuiWindow where
  guiLifecycle : GuiLifecycle := .hidden
  slintWindow : Bool := false
  guiWorker : Bool := false
  guiUserClosed : Bool := false
  deriving DecidableEq, Repr

/-- What a call leaves, tells the host and returns. -/
structure Reply where
  window : GuiWindow
  calls : List HostCall := []
  result : Except String Unit := .ok ()

namespace GuiWindow

/-- `reconcile_pending_gui_close` -/
def reconcilePendingGuiClose (g : GuiWindow) : GuiWindow :=
  if g.guiUserClosed then
    { g with guiUserClosed := false, guiLifecycle := g.guiLifecycle.tryTransition .userClosed }
  else g

/-- `discard_pending_gui_close` -/
def discardPendingGuiClose (g : GuiWindow) : GuiWindow := { g with guiUserClosed := false }

/-- `promote_window_ready` -/
def promoteWindowReady (g : GuiWindow) : GuiWindow :=
  if g.guiLifecycle = .showRequested then
    { g with guiLifecycle := g.guiLifecycle.tryTransition .windowReady }
  else g

/-- `close_current_window` -/
def closeCurrentWindow (g : GuiWindow) : GuiWindow := { g with slintWindow := false }

/-- `is_api_supported` -/
def isApiSupported (b : GuiBackend) (c : GuiConfiguration) : Bool :=
  match c.apiType with
  | .x11 => c.isFloating || b.isEmbeddedSupported
  | .wayland => c.isFloating
  | .other => false

/-- The checks of `create`. -/
def createError (b : GuiBackend) (c : GuiConfiguration) : Option String :=
  if !isApiSupported b c then some "GUI configuration not supported"
  else if !c.isFloating && c.apiType == .x11 && !b.display then
    some "X11 embedded requires a reachable X11 display server (DISPLAY unset)"
  else none

/-- `prewarm_gui_platform` -/
def prewarmGuiPlatform (b : GuiBackend) (g : GuiWindow) : GuiWindow :=
  { g with guiWorker := g.guiWorker || b.spawnWorker.isOk }

def create (b : GuiBackend) (c : GuiConfiguration) (g : GuiWindow) : Reply :=
  match createError b c with
  | some error => { window := g, result := .error error }
  | none =>
    let g := { g.discardPendingGuiClose with guiLifecycle := .hidden }
    { window := g.prewarmGuiPlatform b }

def destroy (b : GuiBackend) (g : GuiWindow) : Reply :=
  let g := g.closeCurrentWindow.discardPendingGuiClose
  { window := { g with guiLifecycle := g.guiLifecycle.tryTransition .destroy }
    calls := b.closed true }

/-- `spawn_gui`, once the mode is settled. -/
def openGeneration (b : GuiBackend) (g : GuiWindow) : Reply :=
  let g := g.closeCurrentWindow
  match if g.guiWorker then .ok () else b.spawnWorker with
  | .error e => { window := g, result := .error e }
  | .ok () =>
    let g := { g with guiWorker := true }
    match b.openWindow with
    | .ok () => { window := { g with slintWindow := true }.promoteWindowReady }
    | .error e => { window := g, result := .error e }

/-- `spawn_gui` -/
def spawnGui (b : GuiBackend) (window : Option HostWindow) (mode : GuiWindowMode) (g : GuiWindow) :
    Reply :=
  match window, mode with
  | some w, .embeddedX11 =>
    if w.apiType ≠ .x11 then
      { window := g
        result := .error ("embedded GUI is supported only on X11 — " ++
          "Wayland has no generic cross-client embedding primitive") }
    else
      match w.parentX11Id with
      | some id =>
        match b.prepareEmbeddedX11 id with
        | .ok () => g.openGeneration b
        | .error reason => { window := g, calls := b.closed true, result := .error reason }
      | none =>
        { window := g
          calls := b.closed true
          result := .error "host X11 Window id could not be extracted from set_parent" }
  | _, _ => g.openGeneration b

/-- `set_parent` -/
def setParent (b : GuiBackend) (w : HostWindow) (g : GuiWindow) : Reply :=
  if w.apiType ≠ .x11 then
    { window := g
      calls := b.closed true
      result := .error ("embedded GUI is supported only on X11 — Wayland has no " ++
        "generic cross-client embedding primitive") }
  else g.spawnGui b (some w) .embeddedX11

/-- `set_transient` -/
def setTransient (b : GuiBackend) (w : HostWindow) (g : GuiWindow) : Reply :=
  g.spawnGui b (some w) .floating

def «show» (g : GuiWindow) : Reply :=
  let g := g.reconcilePendingGuiClose
  match g.guiLifecycle.transition .show with
  | .error e => { window := g, result := .error e }
  | .ok l =>
    let g := { g with guiLifecycle := l }
    { window := if g.slintWindow then g.promoteWindowReady else g }

def hide (g : GuiWindow) : Reply :=
  let g := g.discardPendingGuiClose
  match g.guiLifecycle.transition .hide with
  | .error e => { window := g, result := .error e }
  | .ok l => { window := { g with guiLifecycle := l.tryTransition .windowHidden } }

/-- The callback of `on_close_requested`. -/
def onCloseRequested (b : GuiBackend) (g : GuiWindow) : Reply :=
  { window := { g with guiUserClosed := true }
    calls := if b.hostCalls then b.closed false ++ [.requestCallback] else [] }

end GuiWindow

/-! ## Runs -/

inductive GuiCall where
  | create (c : GuiConfiguration)
  | destroy
  | setParent (w : HostWindow)
  | setTransient (w : HostWindow)
  | «show»
  | hide
  | housekeeping
  | onCloseRequested
  deriving DecidableEq, Repr

def GuiWindow.step (b : GuiBackend) (g : GuiWindow) : GuiCall → Reply
  | .create c => g.create b c
  | .destroy => g.destroy b
  | .setParent w => g.setParent b w
  | .setTransient w => g.setTransient b w
  | .show => g.show
  | .hide => g.hide
  | .housekeeping => { window := g.reconcilePendingGuiClose }
  | .onCloseRequested => g.onCloseRequested b

/-- The window after calls of both threads, each with the answers it got. -/
def GuiWindow.after (calls : List (GuiBackend × GuiCall)) : GuiWindow :=
  calls.foldl (fun g c => (g.step c.1 c.2).window) {}

end NamPlug.Gui
