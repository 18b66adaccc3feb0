import Converge.Catalog
import Converge.Schema.Declaration

/-
  What the configuration of each kind may hold, block by
  block.

  The blocks stand here a second time, beside those of the
  catalog that are read and written, and nothing is taken
  over from them but the closed sets.

  Key definitions:
    * `Declared.metadata`: what every object has
    * `Declared.task`, `Declared.pipeline`: what runs
    * `Declared.taskRun`, `Declared.pipelineRun`: runs
-/

namespace Converge

namespace Declared

------------------------------------------------------------
-- Closed Sets
------------------------------------------------------------

/- A string of a closed set. -/
def choice (choices : Choices) : FieldType :=
  .choice choices.all

/- The name of a type of parameters. -/
def paramType : FieldType :=
  choice paramTypes

------------------------------------------------------------
-- Metadata
------------------------------------------------------------

/- Standard metadata. The store assigns the last four
   fields. -/
def metadata : Declaration :=
  .optional "name" .text <|
  .optional "generate_name" .text <|
  .optional "namespace" .text <|
  .optional "labels" .textMap <|
  .optional "annotations" .textMap <|
  .computed "uid" .text <|
  .computed "resource_version" .text <|
  .computed "generation" .integer <|
  .computed "creation_timestamp" .text <|
  .nil

------------------------------------------------------------
-- Parameters
------------------------------------------------------------

/- The value of a parameter, under a key for its type. -/
def paramValue : Declaration :=
  .optional "type" paramType <|
  .optional "string_val" .text <|
  .optional "array_val" .texts <|
  .optional "object_val" .textMap <|
  .nil

/- A property of an object parameter. -/
def propertySpec : Declaration :=
  .optional "type" paramType <|
  .nil

/- The declaration of a parameter. -/
def paramSpec : Declaration :=
  .required "name" .text <|
  .optional "type" paramType <|
  .optional "description" .text <|
  .optional "properties" (.blockMap propertySpec) <|
  .optional "default" (.block paramValue) <|
  .nil

/- A parameter bound to a value. -/
def param : Declaration :=
  .required "name" .text <|
  .required "value" (.block paramValue) <|
  .nil

------------------------------------------------------------
-- Tasks
------------------------------------------------------------

/- An environment variable. -/
def envVar : Declaration :=
  .required "name" .text <|
  .optional "value" .text <|
  .nil

/- A volume mounted into a container. -/
def volumeMount : Declaration :=
  .required "name" .text <|
  .required "mount_path" .text <|
  .optional "read_only" .flag <|
  .optional "sub_path" .text <|
  .nil

/- A workspace that a step wants for itself. -/
def workspaceUsage : Declaration :=
  .required "name" .text <|
  .optional "mount_path" .text <|
  .nil

/- A step of a task. -/
def step : Declaration :=
  .required "name" .text <|
  .optional "image" .text <|
  .optional "command" .texts <|
  .optional "args" .texts <|
  .optional "working_dir" .text <|
  .optional "env" (.blocks envVar) <|
  .optional "volume_mounts" (.blocks volumeMount) <|
  .optional "image_pull_policy" .text <|
  .optional "script" .text <|
  .optional "timeout" .text <|
  .optional "workspaces" (.blocks workspaceUsage) <|
  .optional "on_error" .text <|
  .nil

/- Defaults of every step of a task. -/
def stepTemplate : Declaration :=
  .optional "image" .text <|
  .optional "command" .texts <|
  .optional "args" .texts <|
  .optional "working_dir" .text <|
  .optional "env" (.blocks envVar) <|
  .optional "volume_mounts" (.blocks volumeMount) <|
  .optional "image_pull_policy" .text <|
  .nil

/- A container that runs beside the steps. -/
def sidecar : Declaration :=
  .required "name" .text <|
  .optional "image" .text <|
  .optional "command" .texts <|
  .optional "args" .texts <|
  .optional "working_dir" .text <|
  .optional "env" (.blocks envVar) <|
  .optional "volume_mounts" (.blocks volumeMount) <|
  .optional "script" .text <|
  .nil

/- A workspace that a task expects. -/
def workspaceDeclaration : Declaration :=
  .required "name" .text <|
  .optional "description" .text <|
  .optional "mount_path" .text <|
  .optional "read_only" .flag <|
  .optional "optional" .flag <|
  .nil

/- A result that a task declares. -/
def taskResult : Declaration :=
  .required "name" .text <|
  .optional "type" paramType <|
  .optional "description" .text <|
  .nil

/- A sequence of steps. -/
def taskSpec : Declaration :=
  .optional "display_name" .text <|
  .optional "description" .text <|
  .optional "params" (.blocks paramSpec) <|
  .optional "steps" (.blocks step) <|
  .optional "step_template" (.block stepTemplate) <|
  .optional "sidecars" (.blocks sidecar) <|
  .optional "workspaces" (.blocks workspaceDeclaration) <|
  .optional "results" (.blocks taskResult) <|
  .nil

------------------------------------------------------------
-- Task Runs
------------------------------------------------------------

/- A condition that the store reports. -/
def condition : Declaration :=
  .required "type" .text <|
  .required "status" (choice Catalog.conditionStatuses) <|
  .optional "reason" .text <|
  .optional "message" .text <|
  .optional "last_transition_time" .text <|
  .nil

/- A reference to a task. -/
def taskRef : Declaration :=
  .required "name" .text <|
  .optional "kind" .text <|
  .optional "api_version" .text <|
  .nil

/- A volume that starts empty. -/
def emptyDir : Declaration :=
  .optional "medium" .text <|
  .nil

/- A volume that outlives its run. -/
def persistentVolumeClaim : Declaration :=
  .required "claim_name" .text <|
  .optional "read_only" .flag <|
  .nil

/- A volume filled from a config map. -/
def configMapSource : Declaration :=
  .required "name" .text <|
  .nil

/- A volume filled from a secret. -/
def secretSource : Declaration :=
  .required "secret_name" .text <|
  .nil

/- A workspace bound to a volume. -/
def workspaceBinding : Declaration :=
  .required "name" .text <|
  .optional "sub_path" .text <|
  .optional "empty_dir" (.block emptyDir) <|
  .optional "persistent_volume_claim"
    (.block persistentVolumeClaim) <|
  .optional "config_map" (.block configMapSource) <|
  .optional "secret" (.block secretSource) <|
  .nil

/- What a task run is asked to do. -/
def taskRunSpec : Declaration :=
  .optional "task_ref" (.block taskRef) <|
  .optional "task_spec" (.block taskSpec) <|
  .optional "params" (.blocks param) <|
  .optional "service_account_name" .text <|
  .optional "timeout" .text <|
  .optional "workspaces" (.blocks workspaceBinding) <|
  .optional "status" (choice Catalog.taskRunOverrides) <|
  .nil

/- A result of a task run. -/
def taskRunResult : Declaration :=
  .required "name" .text <|
  .optional "type" paramType <|
  .optional "value" (.block paramValue) <|
  .nil

/- What the store reports of a task run. -/
def taskRunStatus : Declaration :=
  .computed "conditions" (.blocks condition) <|
  .computed "pod_name" .text <|
  .computed "start_time" .text <|
  .computed "completion_time" .text <|
  .computed "results" (.blocks taskRunResult) <|
  .computed "task_spec" (.block taskSpec) <|
  .nil

------------------------------------------------------------
-- Pipelines
------------------------------------------------------------

/- A guard of a pipeline task. -/
def whenExpression : Declaration :=
  .optional "input" .text <|
  .required "operator" (choice Catalog.whenOperators) <|
  .optional "values" .texts <|
  .nil

/- A pipeline workspace handed to a task. -/
def pipelineTaskWorkspace : Declaration :=
  .required "name" .text <|
  .optional "workspace" .text <|
  .optional "sub_path" .text <|
  .nil

/- A task of a pipeline. -/
def pipelineTask : Declaration :=
  .required "name" .text <|
  .optional "display_name" .text <|
  .optional "task_ref" (.block taskRef) <|
  .optional "task_spec" (.block taskSpec) <|
  .optional "run_after" .texts <|
  .optional "params" (.blocks param) <|
  .optional "workspaces" (.blocks pipelineTaskWorkspace) <|
  .optional "when" (.blocks whenExpression) <|
  .optional "retries" .integer <|
  .optional "timeout" .text <|
  .nil

/- A workspace that a pipeline expects. -/
def pipelineWorkspace : Declaration :=
  .required "name" .text <|
  .optional "description" .text <|
  .optional "optional" .flag <|
  .nil

/- A result that a pipeline declares. -/
def pipelineResult : Declaration :=
  .required "name" .text <|
  .optional "type" paramType <|
  .optional "description" .text <|
  .optional "value" (.block paramValue) <|
  .nil

/- A graph of tasks. -/
def pipelineSpec : Declaration :=
  .optional "display_name" .text <|
  .optional "description" .text <|
  .optional "params" (.blocks paramSpec) <|
  .optional "tasks" (.blocks pipelineTask) <|
  .optional "finally" (.blocks pipelineTask) <|
  .optional "workspaces" (.blocks pipelineWorkspace) <|
  .optional "results" (.blocks pipelineResult) <|
  .nil

------------------------------------------------------------
-- Pipeline Runs
------------------------------------------------------------

/- A reference to a pipeline. -/
def pipelineRef : Declaration :=
  .required "name" .text <|
  .optional "api_version" .text <|
  .nil

/- Time limits of a pipeline run. -/
def timeouts : Declaration :=
  .optional "pipeline" .text <|
  .optional "tasks" .text <|
  .optional "finally" .text <|
  .nil

/- A reference within a namespace. -/
def localObjectReference : Declaration :=
  .required "name" .text <|
  .nil

/- Pod settings of every task run. -/
def podTemplate : Declaration :=
  .optional "node_selector" .textMap <|
  .optional "env" (.blocks envVar) <|
  .optional "image_pull_secrets"
    (.blocks localObjectReference) <|
  .optional "scheduler_name" .text <|
  .optional "priority_class_name" .text <|
  .optional "runtime_class_name" .text <|
  .optional "host_network" .flag <|
  .optional "dns_policy" (choice Catalog.dnsPolicies) <|
  .nil

/- Settings of every task run. -/
def taskRunTemplate : Declaration :=
  .optional "pod_template" (.block podTemplate) <|
  .optional "service_account_name" .text <|
  .nil

/- What a pipeline run is asked to do. -/
def pipelineRunSpec : Declaration :=
  .optional "pipeline_ref" (.block pipelineRef) <|
  .optional "pipeline_spec" (.block pipelineSpec) <|
  .optional "params" (.blocks param) <|
  .optional "status" (choice Catalog.pipelineRunOverrides) <|
  .optional "timeouts" (.block timeouts) <|
  .optional "task_run_template" (.block taskRunTemplate) <|
  .optional "workspaces" (.blocks workspaceBinding) <|
  .nil

/- A result of a pipeline run. -/
def pipelineRunResult : Declaration :=
  .required "name" .text <|
  .optional "value" (.block paramValue) <|
  .nil

/- A task that was not run. -/
def skippedTask : Declaration :=
  .required "name" .text <|
  .optional "reason" .text <|
  .optional "when_expressions" (.blocks whenExpression) <|
  .nil

/- A run that a pipeline run started. -/
def childReference : Declaration :=
  .required "name" .text <|
  .optional "pipeline_task_name" .text <|
  .optional "kind" .text <|
  .optional "api_version" .text <|
  .optional "when_expressions" (.blocks whenExpression) <|
  .nil

/- What the store reports of a pipeline run. -/
def pipelineRunStatus : Declaration :=
  .computed "conditions" (.blocks condition) <|
  .computed "start_time" .text <|
  .computed "completion_time" .text <|
  .computed "finally_start_time" .text <|
  .computed "results" (.blocks pipelineRunResult) <|
  .computed "skipped_tasks" (.blocks skippedTask) <|
  .computed "child_references" (.blocks childReference) <|
  .computed "pipeline_spec" (.block pipelineSpec) <|
  .nil

------------------------------------------------------------
-- Kinds
------------------------------------------------------------

def task : Declaration :=
  .optional "metadata" (.block metadata) <|
  .optional "spec" (.block taskSpec) <|
  .nil

def taskRun : Declaration :=
  .optional "metadata" (.block metadata) <|
  .optional "spec" (.block taskRunSpec) <|
  .computed "status" (.block taskRunStatus) <|
  .nil

def pipeline : Declaration :=
  .optional "metadata" (.block metadata) <|
  .optional "spec" (.block pipelineSpec) <|
  .nil

def pipelineRun : Declaration :=
  .optional "metadata" (.block metadata) <|
  .optional "spec" (.block pipelineRunSpec) <|
  .computed "status" (.block pipelineRunStatus) <|
  .nil

end Declared

end Converge
