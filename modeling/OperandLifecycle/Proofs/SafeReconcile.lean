import OperandLifecycle.Proofs.WriteCalls
import OperandLifecycle.Reconcile.Manager
import OperandLifecycle.Config.Validation
/-!
# What a safe reconcile lets escape

`safeReconcile` runs a reconcile and turns its failure into a warning event and a request to
run again after the default delay of the settings. Posting the event may fail too, and that
failure is swallowed. What is left outside every guard is the default delay itself: the
setting is turned into a delay only after the failure was caught.

`safeReconcile_fails_only_on_default_delay` says exactly what a safe reconcile answers: the
reconcile's own outcome when it succeeds, and after a failure the request to run again with
the failure and the delay of the `default_requeue_seconds` setting, or the failure of making
that delay. A setting that passes its validation rule can still give no delay: `1e20` seconds
is more days than a delay spans.
-/

namespace OperandLifecycle

open Std.Do Json Cluster

set_option mvcgen.warning false

/-! ## Calls that leave the settings alone -/

section Settings

variable {S : Config.Settings}

theorem setUpBackend_settings :
    ⦃fun w => ⌜w.settings = S⌝⦄ setUpBackend
    ⦃post⟨fun _ w => ⌜w.settings = S⌝, fun _ w => ⌜w.settings = S⌝⟩⦄ := by
  mvcgen [setUpBackend]

theorem create_settings (res : Value) :
    ⦃fun w => ⌜w.settings = S⌝⦄ create res
    ⦃post⟨fun _ w => ⌜w.settings = S⌝, fun _ w => ⌜w.settings = S⌝⟩⦄ := by
  mvcgen [create, unreachable, judge, Direct.create, ClusterM.onStore, ClusterM.check_eq]

theorem update_settings (res : Value) :
    ⦃fun w => ⌜w.settings = S⌝⦄ update res
    ⦃post⟨fun _ w => ⌜w.settings = S⌝, fun _ w => ⌜w.settings = S⌝⟩⦄ := by
  mvcgen [update, unreachable, judge, ClusterM.onStore, ClusterM.check_eq]

theorem getObject_settings (k n ns v : Value) :
    ⦃fun w => ⌜w.settings = S⌝⦄ getObject k n ns v
    ⦃post⟨fun _ w => ⌜w.settings = S⌝, fun _ w => ⌜w.settings = S⌝⟩⦄ := by
  mvcgen [getObject, unreachable, judge, Direct.get, ClusterM.check_eq]

/-- Posting an event leaves the settings alone. -/
theorem record_settings (owner : Value) (type : Event.EventType) (reason message : Value) :
    ⦃fun w => ⌜w.settings = S⌝⦄ Event.record owner type reason message
    ⦃post⟨fun _ w => ⌜w.settings = S⌝, fun _ w => ⌜w.settings = S⌝⟩⦄ := by
  have hc := create_settings (S := S)
  have hu := update_settings (S := S)
  have hg := getObject_settings (S := S)
  mvcgen [Event.record, Event.bump, ClusterM.check_eq, ClusterM.setting, ClusterM.settings,
    ClusterM.now, hc, hu, hg]

/-- A run of a call that keeps the settings ends with the settings it started with. -/
theorem settings_of_run {α : Type} {x : ClusterM α}
    (h : ∀ S : Config.Settings, ⦃fun w => ⌜w.settings = S⌝⦄ x
      ⦃post⟨fun _ w => ⌜w.settings = S⌝, fun _ w => ⌜w.settings = S⌝⟩⦄) (w : World) :
    (x.run.run w).2.settings = w.settings := by
  have h' := (triple_iff_run _ _ _).1 (h w.settings) w rfl
  rcases hx : x.run.run w with ⟨_ | a, w'⟩ <;> rw [hx] at h' <;> exact h'

end Settings

/-! ## The safe reconcile -/

namespace Reconcile

/-- The default delay is read from the settings and changes nothing. -/
theorem run_defaultDelay (w : World) :
    defaultDelay.run.run w = (Delay.ofSetting (w.settings.get "default_requeue_seconds"), w) := by
  simp only [defaultDelay, ClusterM.setting, ClusterM.settings, run_run_bind, run_run_getThe,
    run_run_pure]
  exact run_check _ w

/-- Setting up the backend always succeeds and keeps the settings. -/
theorem run_setUpBackend (w : World) :
    ∃ w', setUpBackend.run.run w = (.ok (), w') ∧ w'.settings = w.settings := by
  simp only [setUpBackend, run_run_bind, run_run_getThe]
  split
  · exact ⟨_, rfl, rfl⟩
  · exact ⟨_, rfl, rfl⟩

/-- What a safe reconcile answers: the reconcile's success as it is, and after its failure the
request to run again with that failure and the default delay of the settings the failure left. -/
theorem safeReconcile_fails_only_on_default_delay (choice : ControllerChoice) (resource : Value)
    (finalizer : Option Value) (w : World) :
    (∀ o w', (reconcile choice resource finalizer).run.run w = (.ok o, w') →
      (safeReconcile choice resource finalizer).run.run w = (.ok o, w')) ∧
    (∀ e w₁, (reconcile choice resource finalizer).run.run w = (.error e, w₁) →
      ∃ w₂, w₂.settings = w₁.settings ∧
        (safeReconcile choice resource finalizer).run.run w =
          ((Delay.ofSetting (w₁.settings.get "default_requeue_seconds")).map
            (fun d => (⟨true, d, some e⟩ : Outcome)), w₂)) := by
  constructor
  · intro o w' h
    simp only [safeReconcile, run_run_bind, run_run_tryCatch, run_run_map, h]
    rfl
  · intro e w₁ h
    simp only [safeReconcile, run_run_bind, run_run_tryCatch, run_run_map, h, run_run_pure]
    obtain ⟨wa, hsetup, hwa⟩ := run_setUpBackend w₁
    have hkept := settings_of_run (fun S => record_settings (S := S) resource .warning
      (.str "ReconcileFailed") (.str e.message)) wa
    rw [hsetup]
    dsimp only
    -- the failure of posting the event is swallowed: what follows starts where posting stopped
    generalize (Event.record resource .warning (.str "ReconcileFailed") (.str e.message)).run.run wa
      = posted at hkept ⊢
    obtain ⟨_ | b, wb⟩ := posted
    all_goals
      dsimp only at hkept ⊢
      rw [run_defaultDelay, hkept, hwa]
      refine ⟨wb, hkept.trans hwa, ?_⟩
      cases Delay.ofSetting (w₁.settings.get "default_requeue_seconds") <;> rfl

/-- A reconcile of a controller that is not the manager's fails before it changes anything,
when the default delay cannot be made: a paused resource asks for that delay, any other fails on
the controller. -/
theorem reconcile_unknown_fails {w : World} {f : Failure}
    (hdelay : Delay.ofSetting (w.settings.get "default_requeue_seconds") = .error f)
    (name : String) (resource : Value) (finalizer : Option Value) :
    ∃ e, (reconcile (.unknown name) resource finalizer).run.run w = (.error e, w) := by
  unfold reconcile
  cases resource with
  | obj fields =>
    simp only [run_run_bind, run_run_pure, run_check]
    rcases hlog : checkLogging (.obj fields) with e | _
    · exact ⟨e, rfl⟩
    rcases hpaused : isPaused (.obj fields) with e | paused
    · exact ⟨e, rfl⟩
    cases paused with
    | true =>
      -- a paused resource asks for the default delay, which cannot be made
      simp only [if_true, run_run_bind, run_defaultDelay, hdelay]
      exact ⟨f, rfl⟩
    | false =>
      simp only [Bool.false_eq_true, if_false]
      cases finalizer with
      | some v => exact ⟨_, rfl⟩
      | none =>
        simp only [run_run_bind, run_check]
        -- reading whether the resource is being deleted fails, or the controller does
        rcases (Value.obj fields).attr "metadata" with e | md
        · exact ⟨e, rfl⟩
        · rcases hdt : md.field "deletionTimestamp" with e | _
          · exact ⟨e, by simp only [bind, Except.bind, hdt]⟩
          · exact ⟨_, by simp only [bind, Except.bind, hdt]; rfl⟩
  | _ => exact ⟨_, rfl⟩

/-- The rule the validation file gives `default_requeue_seconds`: a number, at least `0`. -/
def defaultDelayRule : Value := .obj [("type", .str "number"), ("min", .int 0)]

end Reconcile

end OperandLifecycle
