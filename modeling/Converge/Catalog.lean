import Converge.Schema.Fields

/-
  The blocks of which tasks, pipelines and their runs are
  made.

  Key definitions:
    * `Catalog.metadata`: what every object has
    * `Catalog.taskSpec`, `Catalog.pipelineSpec`: what runs
    * `Catalog.taskRunSpec`, `Catalog.pipelineRunSpec`: runs
    * `Catalog.taskRunStatus`, `Catalog.pipelineRunStatus`:
      what the store reports of a run
-/

namespace Converge

namespace Catalog

------------------------------------------------------------
-- Closed Sets
------------------------------------------------------------

/- The states of a condition. -/
def conditionStatuses : Choices :=
  ⟨"True", ["False", "Unknown"]⟩

/- Requested overrides of a task run. -/
def taskRunOverrides : Choices :=
  ⟨"TaskRunCancelled", []⟩

/- How the input of a guard relates to its values. -/
def whenOperators : Choices :=
  ⟨"!", ["=", "==", "in", "!=", "notin", "exists", "gt",
    "lt"]⟩

/- Requested overrides of a pipeline run. -/
def pipelineRunOverrides : Choices :=
  ⟨"Cancelled", ["CancelledRunFinally", "StoppedRunFinally",
    "PipelineRunPending"]⟩

/- How a pod resolves names. -/
def dnsPolicies : Choices :=
  ⟨"ClusterFirst", ["ClusterFirstWithHostNet", "Default",
    "None"]⟩

------------------------------------------------------------
-- Shapes of Leaves
------------------------------------------------------------

abbrev text : Shape := .leaf .text

abbrev requiredText : Shape := .leaf .requiredText

abbrev flag : Shape := .leaf .flag

abbrev integer : Shape := .leaf .integer

abbrev timestamp : Shape := .leaf .timestamp

abbrev texts : Shape := .leaf .texts

abbrev textMap : Shape := .leaf .textMap

abbrev choice (choices : Choices) : Shape :=
  .leaf (.choice choices)

abbrev requiredChoice (choices : Choices) : Shape :=
  .leaf (.requiredChoice choices)

------------------------------------------------------------
-- Metadata
------------------------------------------------------------

/- Standard metadata. The store assigns the last five fields. -/
def metadata : Fields :=
  .field "name" "name" text <|
  .field "generate_name" "generateName" text <|
  .field "namespace" "namespace" text <|
  .field "labels" "labels" textMap <|
  .field "annotations" "annotations" textMap <|
  .field "uid" "uid" text <|
  .field "resource_version" "resourceVersion" text <|
  .field "generation" "generation" integer <|
  .field "creation_timestamp" "creationTimestamp"
    timestamp <|
  .wireOnly "deletionTimestamp" .timestamp <|
  .nil

------------------------------------------------------------
-- Parameters
------------------------------------------------------------

/- A property of an object parameter. -/
def propertySpec : Fields :=
  .field "type" "type" (choice paramTypes) <|
  .nil

/- The declaration of a parameter. -/
def paramSpec : Fields :=
  .field "name" "name" requiredText <|
  .field "type" "type" (choice paramTypes) <|
  .field "description" "description" text <|
  .field "properties" "properties"
    (.blockMap propertySpec) <|
  .field "default" "default" (.value .optional) <|
  .nil

/- A parameter bound to a value. -/
def param : Fields :=
  .field "name" "name" requiredText <|
  .field "value" "value" (.value .required) <|
  .nil

------------------------------------------------------------
-- Tasks
------------------------------------------------------------

/- An environment variable. -/
def envVar : Fields :=
  .field "name" "name" requiredText <|
  .field "value" "value" text <|
  .nil

/- A volume mounted into a container. -/
def volumeMount : Fields :=
  .field "name" "name" requiredText <|
  .field "mount_path" "mountPath" requiredText <|
  .field "read_only" "readOnly" flag <|
  .field "sub_path" "subPath" text <|
  .nil

/- A workspace that a step wants for itself. -/
def workspaceUsage : Fields :=
  .field "name" "name" requiredText <|
  .field "mount_path" "mountPath" text <|
  .nil

/- A step of a task. -/
def step : Fields :=
  .field "name" "name" requiredText <|
  .field "image" "image" text <|
  .field "command" "command" texts <|
  .field "args" "args" texts <|
  .field "working_dir" "workingDir" text <|
  .field "env" "env" (.blocks envVar) <|
  .field "volume_mounts" "volumeMounts"
    (.blocks volumeMount) <|
  .field "image_pull_policy" "imagePullPolicy" text <|
  .field "script" "script" text <|
  .field "timeout" "timeout" text <|
  .field "workspaces" "workspaces"
    (.blocks workspaceUsage) <|
  .field "on_error" "onError" text <|
  .nil

/- Defaults of every step of a task. -/
def stepTemplate : Fields :=
  .field "image" "image" text <|
  .field "command" "command" texts <|
  .field "args" "args" texts <|
  .field "working_dir" "workingDir" text <|
  .field "env" "env" (.blocks envVar) <|
  .field "volume_mounts" "volumeMounts"
    (.blocks volumeMount) <|
  .field "image_pull_policy" "imagePullPolicy" text <|
  .nil

/- A container that runs beside the steps. -/
def sidecar : Fields :=
  .field "name" "name" requiredText <|
  .field "image" "image" text <|
  .field "command" "command" texts <|
  .field "args" "args" texts <|
  .field "working_dir" "workingDir" text <|
  .field "env" "env" (.blocks envVar) <|
  .field "volume_mounts" "volumeMounts"
    (.blocks volumeMount) <|
  .field "script" "script" text <|
  .nil

/- A workspace that a task expects. -/
def workspaceDeclaration : Fields :=
  .field "name" "name" requiredText <|
  .field "description" "description" text <|
  .field "mount_path" "mountPath" text <|
  .field "read_only" "readOnly" flag <|
  .field "optional" "optional" flag <|
  .nil

/- A result that a task declares. -/
def taskResult : Fields :=
  .field "name" "name" requiredText <|
  .field "type" "type" (choice paramTypes) <|
  .field "description" "description" text <|
  .nil

/- A sequence of steps. -/
def taskSpec : Fields :=
  .field "display_name" "displayName" text <|
  .field "description" "description" text <|
  .field "params" "params" (.blocks paramSpec) <|
  .field "steps" "steps" (.blocks step) <|
  .field "step_template" "stepTemplate"
    (.block stepTemplate) <|
  .field "sidecars" "sidecars" (.blocks sidecar) <|
  .field "workspaces" "workspaces"
    (.blocks workspaceDeclaration) <|
  .field "results" "results" (.blocks taskResult) <|
  .nil

------------------------------------------------------------
-- Task Runs
------------------------------------------------------------

/- A condition that the store reports. -/
def condition : Fields :=
  .field "type" "type" requiredText <|
  .field "status" "status"
    (requiredChoice conditionStatuses) <|
  .field "reason" "reason" text <|
  .field "message" "message" text <|
  .field "last_transition_time" "lastTransitionTime"
    timestamp <|
  .nil

/- A reference to a task. -/
def taskRef : Fields :=
  .field "name" "name" requiredText <|
  .field "kind" "kind" text <|
  .field "api_version" "apiVersion" text <|
  .nil

/- A volume that starts empty. -/
def emptyDir : Fields :=
  .field "medium" "medium" text <|
  .nil

/- A volume that outlives its run. -/
def persistentVolumeClaim : Fields :=
  .field "claim_name" "claimName" requiredText <|
  .field "read_only" "readOnly" flag <|
  .nil

/- A volume filled from a config map. -/
def configMapSource : Fields :=
  .field "name" "name" requiredText <|
  .nil

/- A volume filled from a secret. -/
def secretSource : Fields :=
  .field "secret_name" "secretName" requiredText <|
  .nil

/- A workspace bound to a volume. -/
def workspaceBinding : Fields :=
  .field "name" "name" requiredText <|
  .field "sub_path" "subPath" text <|
  .field "empty_dir" "emptyDir" (.block emptyDir) <|
  .field "persistent_volume_claim" "persistentVolumeClaim"
    (.block persistentVolumeClaim) <|
  .field "config_map" "configMap"
    (.block configMapSource) <|
  .field "secret" "secret" (.block secretSource) <|
  .nil

/- What a task run is asked to do. -/
def taskRunSpec : Fields :=
  .field "task_ref" "taskRef" (.block taskRef) <|
  .field "task_spec" "taskSpec" (.block taskSpec) <|
  .field "params" "params" (.blocks param) <|
  .field "service_account_name" "serviceAccountName" text <|
  .field "timeout" "timeout" text <|
  .field "workspaces" "workspaces"
    (.blocks workspaceBinding) <|
  .field "status" "status" (choice taskRunOverrides) <|
  .nil

/- A result of a task run. -/
def taskRunResult : Fields :=
  .field "name" "name" requiredText <|
  .field "type" "type" (choice paramTypes) <|
  .field "value" "value" (.value .assumed) <|
  .nil

/- What the store reports of a task run. -/
def taskRunStatus : Fields :=
  .field "conditions" "conditions" (.blocks condition) <|
  .field "pod_name" "podName" text <|
  .field "start_time" "startTime" timestamp <|
  .field "completion_time" "completionTime" timestamp <|
  .field "results" "results" (.blocks taskRunResult) <|
  .field "task_spec" "taskSpec" (.block taskSpec) <|
  .nil

------------------------------------------------------------
-- Pipelines
------------------------------------------------------------

/- A guard of a pipeline task. -/
def whenExpression : Fields :=
  .field "input" "input" text <|
  .field "operator" "operator"
    (requiredChoice whenOperators) <|
  .field "values" "values" texts <|
  .nil

/- A pipeline workspace handed to a task. -/
def pipelineTaskWorkspace : Fields :=
  .field "name" "name" requiredText <|
  .field "workspace" "workspace" text <|
  .field "sub_path" "subPath" text <|
  .nil

/- A task of a pipeline. -/
def pipelineTask : Fields :=
  .field "name" "name" requiredText <|
  .field "display_name" "displayName" text <|
  .field "task_ref" "taskRef" (.block taskRef) <|
  .field "task_spec" "taskSpec" (.block taskSpec) <|
  .field "run_after" "runAfter" texts <|
  .field "params" "params" (.blocks param) <|
  .field "workspaces" "workspaces"
    (.blocks pipelineTaskWorkspace) <|
  .field "when" "when" (.blocks whenExpression) <|
  .field "retries" "retries" integer <|
  .field "timeout" "timeout" text <|
  .nil

/- A workspace that a pipeline expects. -/
def pipelineWorkspace : Fields :=
  .field "name" "name" requiredText <|
  .field "description" "description" text <|
  .field "optional" "optional" flag <|
  .nil

/- A result that a pipeline declares. -/
def pipelineResult : Fields :=
  .field "name" "name" requiredText <|
  .field "type" "type" (choice paramTypes) <|
  .field "description" "description" text <|
  .field "value" "value" (.value .optional) <|
  .nil

/- A graph of tasks. -/
def pipelineSpec : Fields :=
  .field "display_name" "displayName" text <|
  .field "description" "description" text <|
  .field "params" "params" (.blocks paramSpec) <|
  .field "tasks" "tasks" (.blocks pipelineTask) <|
  .field "finally" "finally" (.blocks pipelineTask) <|
  .field "workspaces" "workspaces"
    (.blocks pipelineWorkspace) <|
  .field "results" "results" (.blocks pipelineResult) <|
  .nil

------------------------------------------------------------
-- Pipeline Runs
------------------------------------------------------------

/- A reference to a pipeline. -/
def pipelineRef : Fields :=
  .field "name" "name" requiredText <|
  .field "api_version" "apiVersion" text <|
  .nil

/- Time limits of a pipeline run. -/
def timeouts : Fields :=
  .field "pipeline" "pipeline" text <|
  .field "tasks" "tasks" text <|
  .field "finally" "finally" text <|
  .nil

/- A reference within a namespace. -/
def localObjectReference : Fields :=
  .field "name" "name" requiredText <|
  .nil

/- Pod settings of every task run. -/
def podTemplate : Fields :=
  .field "node_selector" "nodeSelector" textMap <|
  .field "env" "env" (.blocks envVar) <|
  .field "image_pull_secrets" "imagePullSecrets"
    (.blocks localObjectReference) <|
  .field "scheduler_name" "schedulerName" text <|
  .field "priority_class_name" "priorityClassName" text <|
  .field "runtime_class_name" "runtimeClassName" text <|
  .field "host_network" "hostNetwork" flag <|
  .field "dns_policy" "dnsPolicy" (choice dnsPolicies) <|
  .nil

/- Settings of every task run. -/
def taskRunTemplate : Fields :=
  .field "pod_template" "podTemplate"
    (.block podTemplate) <|
  .field "service_account_name" "serviceAccountName" text <|
  .nil

/- What a pipeline run is asked to do. -/
def pipelineRunSpec : Fields :=
  .field "pipeline_ref" "pipelineRef"
    (.block pipelineRef) <|
  .field "pipeline_spec" "pipelineSpec"
    (.block pipelineSpec) <|
  .field "params" "params" (.blocks param) <|
  .field "status" "status" (choice pipelineRunOverrides) <|
  .field "timeouts" "timeouts" (.block timeouts) <|
  .field "task_run_template" "taskRunTemplate"
    (.block taskRunTemplate) <|
  .field "workspaces" "workspaces"
    (.blocks workspaceBinding) <|
  .nil

/- A result of a pipeline run. -/
def pipelineRunResult : Fields :=
  .field "name" "name" requiredText <|
  .field "value" "value" (.value .assumed) <|
  .nil

/- A task that was not run. -/
def skippedTask : Fields :=
  .field "name" "name" requiredText <|
  .field "reason" "reason" text <|
  .field "when_expressions" "whenExpressions"
    (.blocks whenExpression) <|
  .nil

/- A run that a pipeline run started. -/
def childReference : Fields :=
  .field "name" "name" requiredText <|
  .field "pipeline_task_name" "pipelineTaskName" text <|
  .field "kind" "kind" text <|
  .field "api_version" "apiVersion" text <|
  .field "when_expressions" "whenExpressions"
    (.blocks whenExpression) <|
  .nil

/- What the store reports of a pipeline run. -/
def pipelineRunStatus : Fields :=
  .field "conditions" "conditions" (.blocks condition) <|
  .field "start_time" "startTime" timestamp <|
  .field "completion_time" "completionTime" timestamp <|
  .field "finally_start_time" "finallyStartTime"
    timestamp <|
  .field "results" "results" (.blocks pipelineRunResult) <|
  .field "skipped_tasks" "skippedTasks"
    (.blocks skippedTask) <|
  .field "child_references" "childReferences"
    (.blocks childReference) <|
  .field "pipeline_spec" "pipelineSpec"
    (.block pipelineSpec) <|
  .nil

end Catalog

end Converge
