import OperandLifecycle.Json.Display
import OperandLifecycle.Failure
/-!
# Settings

The manager's settings form one object of named values (`Settings`). Every run starts from
`Settings.initial`: logging off, the in-memory cluster, events posted, operators in `cluster`
mode installed into `openshift-operators`, a requeue after 3 seconds while a phase settles and
after 60 seconds on failure, three retries of a conflicting update, and no waiting between
deletion checks. A run may override six of them (`Settings.overridable`).
-/
namespace OperandLifecycle.Config

open Json

/-- The named settings values, in their declared order. -/
structure Settings where
  values : Fields

/-- The settings every run starts from. -/
def Settings.initial : Settings := ⟨[
  ("log_level", .str "off"),
  ("log_filters", .str ""),
  ("log_json", .bool false),
  ("log_thread_id", .bool false),
  ("dry_run", .bool true),
  ("deploy_retries", .int 3),
  ("retry_backoff_base_seconds", .int 0),
  ("cluster_operator_namespace", .str "openshift-operators"),
  ("post_events", .bool true),
  ("requeue_after_seconds", .int 3),
  ("default_requeue_seconds", .int 60),
  ("delete_poll_interval_seconds", .int 0),
  ("delete_poll_timeout_seconds", .int 0)]⟩

/-- The keys of the settings as they are declared. -/
def Settings.declaredKeys : List String := Settings.initial.values.map (·.1)

/-- The settings a run may override. -/
def Settings.overridable : List String :=
  ["post_events", "cluster_operator_namespace", "requeue_after_seconds",
   "default_requeue_seconds", "deploy_retries", "dry_run"]

/-- A setting's value; an unset setting reads as `null`. -/
def Settings.get (s : Settings) (k : String) : Value := (Fields.get? s.values k).getD .null

/-- Sets a setting. -/
def Settings.set (s : Settings) (k : String) (v : Value) : Settings := ⟨Fields.insert s.values k v⟩

/-- The initial settings with a run's overrides; a key that may not be overridden is
refused. -/
def Settings.withOverrides (overrides : Fields) : Except Failure Settings :=
  overrides.foldlM (fun s p =>
    if Settings.overridable.contains p.1 then .ok (s.set p.1 p.2)
    else .error (Failure.missingKey (Text.quoteLiteral ("unsupported config key " ++ p.1))))
    Settings.initial

/-- Reads a setting by name, as a module attribute: the settings object itself, the declared
keys, or one setting. -/
def Settings.attribute (s : Settings) (name : String) : Except Failure Value :=
  if name == "library_config" then .ok (.obj s.values)
  else if name == "__all__" then .ok (.arr (Settings.declaredKeys.map .str))
  else match Fields.get? s.values name with
    | some v => .ok v
    | none => .error (.raised .attributeError ("No such config attribute " ++ name))

end OperandLifecycle.Config
