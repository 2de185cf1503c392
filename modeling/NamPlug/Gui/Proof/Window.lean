import NamPlug.Gui.Window

/-!
# The window follows the host

What the host knows of the window is made of its own calls and of the closes it is told of. The window
is what the host knows, however the calls of the two threads interleave: a close that the main thread
has not seen yet counts as one, and between two calls no hide is left half done.
-/

namespace NamPlug.Gui

/-! ## What the host knows -/

inductive HostView where
  | hidden | shown | destroyed
  deriving DecidableEq, Repr

/-- A destroyed window stays destroyed until the next `create`. -/
def HostView.unlessDestroyed (v v' : HostView) : HostView := if v = .destroyed then v else v'

def HostView.next (v : HostView) : GuiBackend × GuiCall → HostView
  | (b, .create c) => if GuiWindow.createError b c = none then .hidden else v
  | (_, .destroy) => .destroyed
  | (_, .show) => v.unlessDestroyed .shown
  | (_, .hide) => v.unlessDestroyed .hidden
  | (_, .onCloseRequested) => v.unlessDestroyed .hidden
  | _ => v

def HostView.after (calls : List (GuiBackend × GuiCall)) : HostView :=
  calls.foldl HostView.next .hidden

namespace GuiWindow

/-- The window as it is once the close signal is heard. -/
def view (g : GuiWindow) : HostView :=
  match g.guiLifecycle with
  | .hidden | .hideRequested => .hidden
  | .showRequested | .active => if g.guiUserClosed then .hidden else .shown
  | .destroyed => .destroyed

/-- Between two calls, no hide is under way, and no window that is there waits to be shown. -/
structure Settled (g : GuiWindow) : Prop where
  not_hiding : g.guiLifecycle ≠ .hideRequested
  not_waiting : g.slintWindow = true → g.guiLifecycle ≠ .showRequested

theorem Settled.at_rest {g : GuiWindow} (l : GuiLifecycle)
    (hl : l ≠ .hideRequested ∧ l ≠ .showRequested) (h : g.guiLifecycle = l) : g.Settled := by
  subst h
  exact ⟨hl.1, fun _ => hl.2⟩

/-! ## The parts of a call -/

theorem Settled.closeCurrentWindow {g : GuiWindow} (h : g.Settled) : g.closeCurrentWindow.Settled :=
  ⟨h.not_hiding, fun hwindow => by cases hwindow⟩

@[simp] theorem view_closeCurrentWindow (g : GuiWindow) : g.closeCurrentWindow.view = g.view := rfl

theorem Settled.promoteWindowReady {g : GuiWindow} (h : g.guiLifecycle ≠ .hideRequested) :
    g.promoteWindowReady.Settled := by
  unfold GuiWindow.promoteWindowReady
  split
  · next hrequested => exact .at_rest .active (by decide) (by rw [hrequested]; rfl)
  · next hrequested => exact ⟨h, fun _ => hrequested⟩

@[simp] theorem view_promoteWindowReady (g : GuiWindow) : g.promoteWindowReady.view = g.view := by
  unfold promoteWindowReady
  split
  · next hrequested => simp only [view, hrequested]; rfl
  · rfl

theorem Settled.reconcile {g : GuiWindow} (h : g.Settled) : g.reconcilePendingGuiClose.Settled := by
  unfold reconcilePendingGuiClose
  split
  · obtain ⟨l, w, k, u⟩ := g
    cases l with
    | hidden => exact .at_rest .hidden (by decide) rfl
    | showRequested => exact .at_rest .hidden (by decide) rfl
    | active => exact .at_rest .hidden (by decide) rfl
    | hideRequested => exact absurd rfl h.not_hiding
    | destroyed => exact .at_rest .destroyed (by decide) rfl
  · exact h

@[simp] theorem view_reconcile (g : GuiWindow) : g.reconcilePendingGuiClose.view = g.view := by
  unfold reconcilePendingGuiClose
  split
  · next hclosed =>
    obtain ⟨l, w, k, u⟩ := g
    obtain rfl : u = true := hclosed
    cases l <;> rfl
  · rfl

theorem reconcile_guiUserClosed (g : GuiWindow) :
    g.reconcilePendingGuiClose.guiUserClosed = false := by
  unfold reconcilePendingGuiClose
  split
  · rfl
  · next hclosed => exact Bool.eq_false_iff.2 hclosed

/-! ## The calls -/

theorem create_spec {g : GuiWindow} (h : g.Settled) (b : GuiBackend) (c : GuiConfiguration) :
    (g.create b c).window.Settled ∧
      (g.create b c).window.view = if createError b c = none then .hidden else g.view := by
  unfold create
  split
  · next error herror => simp [herror, h]
  · next herror =>
    rw [if_pos herror]
    exact ⟨.at_rest .hidden (by decide) rfl, rfl⟩

theorem destroy_spec (g : GuiWindow) (b : GuiBackend) :
    (g.destroy b).window.Settled ∧ (g.destroy b).window.view = .destroyed := by
  have hdestroyed : (g.destroy b).window.guiLifecycle = .destroyed := by
    obtain ⟨l, w, k, u⟩ := g
    cases l <;> rfl
  refine ⟨.at_rest .destroyed (by decide) hdestroyed, ?_⟩
  unfold view
  rw [hdestroyed]

theorem openGeneration_spec {g : GuiWindow} (h : g.Settled) (b : GuiBackend) :
    (g.openGeneration b).window.Settled ∧ (g.openGeneration b).window.view = g.view := by
  unfold openGeneration
  simp only
  split
  · exact ⟨h.closeCurrentWindow, rfl⟩
  · split
    · exact ⟨.promoteWindowReady h.not_hiding, by rw [view_promoteWindowReady]; rfl⟩
    · exact ⟨⟨h.not_hiding, fun hwindow => by cases hwindow⟩, rfl⟩

theorem spawnGui_spec {g : GuiWindow} (h : g.Settled) (b : GuiBackend) (window : Option HostWindow)
    (mode : GuiWindowMode) :
    (g.spawnGui b window mode).window.Settled ∧ (g.spawnGui b window mode).window.view = g.view := by
  unfold spawnGui
  split
  · split
    · exact ⟨h, rfl⟩
    · split
      · split
        · exact openGeneration_spec h b
        · exact ⟨h, rfl⟩
      · exact ⟨h, rfl⟩
  · exact openGeneration_spec h b

theorem setParent_spec {g : GuiWindow} (h : g.Settled) (b : GuiBackend) (w : HostWindow) :
    (g.setParent b w).window.Settled ∧ (g.setParent b w).window.view = g.view := by
  unfold setParent
  split
  · exact ⟨h, rfl⟩
  · exact spawnGui_spec h b (some w) .embeddedX11

/-- A show is refused of a window that is shown already, and of no other. -/
theorem show_spec {g : GuiWindow} (h : g.Settled) :
    g.show.window.Settled ∧ g.show.window.view = g.view.unlessDestroyed .shown ∧
      (g.show.result = .ok () ↔ g.view ≠ .shown) := by
  have hsettled := h.reconcile
  have hheard := reconcile_guiUserClosed g
  rw [← view_reconcile g]
  unfold GuiWindow.show
  generalize g.reconcilePendingGuiClose = g' at *
  obtain ⟨l, w, k, u⟩ := g'
  obtain rfl : u = false := hheard
  cases l with
  | hidden =>
    refine ⟨?_, ?_, iff_of_true rfl nofun⟩
    · cases w with
      | false => exact ⟨nofun, nofun⟩
      | true => exact .at_rest .active (by decide) rfl
    · cases w <;> rfl
  | showRequested => exact ⟨hsettled, rfl, iff_of_false nofun (fun h => h rfl)⟩
  | active => exact ⟨hsettled, rfl, iff_of_false nofun (fun h => h rfl)⟩
  | hideRequested => exact absurd rfl hsettled.not_hiding
  | destroyed =>
    refine ⟨?_, ?_, iff_of_true rfl nofun⟩
    · cases w <;> exact .at_rest .destroyed (by decide) rfl
    · cases w <;> rfl

/-- A hide is taken of a window that is shown. -/
theorem hide_spec {g : GuiWindow} (h : g.Settled) :
    g.hide.window.Settled ∧ g.hide.window.view = g.view.unlessDestroyed .hidden ∧
      (g.view ≠ .shown ∨ g.hide.result = .ok ()) := by
  obtain ⟨l, w, k, u⟩ := g
  cases l with
  | hidden => exact ⟨.at_rest .hidden (by decide) rfl, rfl, .inl nofun⟩
  | showRequested => exact ⟨.at_rest .hidden (by decide) rfl, by cases u <;> rfl, .inr rfl⟩
  | active => exact ⟨.at_rest .hidden (by decide) rfl, by cases u <;> rfl, .inr rfl⟩
  | hideRequested => exact absurd rfl h.not_hiding
  | destroyed => exact ⟨.at_rest .destroyed (by decide) rfl, rfl, .inr rfl⟩

theorem onCloseRequested_spec {g : GuiWindow} (h : g.Settled) (b : GuiBackend) :
    (g.onCloseRequested b).window.Settled ∧
      (g.onCloseRequested b).window.view = g.view.unlessDestroyed .hidden := by
  refine ⟨⟨h.not_hiding, h.not_waiting⟩, ?_⟩
  obtain ⟨l, w, k, u⟩ := g
  cases l <;> cases u <;> rfl

/-! ## Runs -/

theorem step_spec {g : GuiWindow} (h : g.Settled) (c : GuiBackend × GuiCall) :
    (g.step c.1 c.2).window.Settled ∧ (g.step c.1 c.2).window.view = g.view.next c := by
  obtain ⟨b, c⟩ := c
  cases c with
  | create c => exact create_spec h b c
  | destroy => exact destroy_spec g b
  | setParent w => exact setParent_spec h b w
  | setTransient w => exact spawnGui_spec h b (some w) .floating
  | «show» => exact ⟨(show_spec h).1, (show_spec h).2.1⟩
  | hide => exact ⟨(hide_spec h).1, (hide_spec h).2.1⟩
  | housekeeping => exact ⟨h.reconcile, view_reconcile g⟩
  | onCloseRequested => exact onCloseRequested_spec h b

theorem foldl_spec {g : GuiWindow} (h : g.Settled) (calls : List (GuiBackend × GuiCall)) :
    (calls.foldl (fun g c => (g.step c.1 c.2).window) g).Settled ∧
      (calls.foldl (fun g c => (g.step c.1 c.2).window) g).view =
        calls.foldl HostView.next g.view := by
  induction calls generalizing g with
  | nil => exact ⟨h, rfl⟩
  | cons c calls ih =>
    obtain ⟨hsettled, hview⟩ := step_spec h c
    simp only [List.foldl_cons, ← hview]
    exact ih hsettled

/-- After any calls of the two threads, the window is what the host knows of it: `show` is taken
exactly where the host knows of no shown window, and `hide` wherever it knows of one. -/
theorem window_follows_host (calls : List (GuiBackend × GuiCall)) :
    (after calls).Settled ∧ (after calls).view = HostView.after calls ∧
      ((after calls).show.result = .ok () ↔ HostView.after calls ≠ .shown) ∧
      (HostView.after calls ≠ .shown ∨ (after calls).hide.result = .ok ()) := by
  have hinit : GuiWindow.Settled {} := .at_rest .hidden (by decide) rfl
  obtain ⟨hsettled, hview⟩ : (after calls).Settled ∧ (after calls).view = HostView.after calls :=
    foldl_spec hinit calls
  rw [← hview]
  exact ⟨hsettled, rfl, (show_spec hsettled).2.2, (hide_spec hsettled).2.2⟩

end GuiWindow

end NamPlug.Gui
