import Converge.Catalog
import Converge.Declarations
import Converge.Object.Coordinate

/-
  The kinds of objects.

  Key definitions:
    * `Kind`: tasks, pipelines and their runs
    * `Kind.resourceType`: where objects of a kind live
    * `Kind.fields`: what objects of a kind hold
    * `Kind.declared`: what their configurations may set
-/

namespace Converge

/- A kind of object. -/
inductive Kind where
  | task
  | taskRun
  | pipeline
  | pipelineRun
deriving DecidableEq

namespace Kind

def name : Kind → String
  | .task => "Task"
  | .taskRun => "TaskRun"
  | .pipeline => "Pipeline"
  | .pipelineRun => "PipelineRun"

/- All kinds. -/
def all : List Kind :=
  [.task, .taskRun, .pipeline, .pipelineRun]

/- The name of a kind in commands and files. -/
def word : Kind → String
  | .task => "task"
  | .taskRun => "task-run"
  | .pipeline => "pipeline"
  | .pipelineRun => "pipeline-run"

/- The kind that a word names. -/
def ofWord? (word : String) : Option Kind :=
  all.find? fun kind => kind.word = word

def version : Kind → String
  | .task => "v1"
  | .taskRun => "v1alpha1"
  | .pipeline => "v1alpha1"
  | .pipelineRun => "v1alpha1"

def plural : Kind → String
  | .task => "tasks"
  | .taskRun => "taskruns"
  | .pipeline => "pipelines"
  | .pipelineRun => "pipelineruns"

/- The group, version and plural name of a kind. -/
def resourceType (kind : Kind) : ResourceType :=
  ⟨"tekton.dev", kind.version, kind.plural⟩

/- The address of an object of a kind. -/
def coordinate
    (kind : Kind)
    (id : ObjectId) :
    Coordinate :=
  .ofId kind.resourceType id

/- What an object of a kind is asked to be. -/
def spec : Kind → Fields
  | .task => Catalog.taskSpec
  | .taskRun => Catalog.taskRunSpec
  | .pipeline => Catalog.pipelineSpec
  | .pipelineRun => Catalog.pipelineRunSpec

/- What the store reports of an object of a kind: only runs
   have a status. -/
def observations : Kind → Fields
  | .task => .nil
  | .taskRun =>
      .field "status" "status"
        (.observed Catalog.taskRunStatus) .nil
  | .pipeline => .nil
  | .pipelineRun =>
      .field "status" "status"
        (.observed Catalog.pipelineRunStatus) .nil

/- The fields of an object of a kind. -/
def fields (kind : Kind) : Fields :=
  .field "metadata" "metadata" (.part Catalog.metadata) <|
  .field "spec" "spec" (.part kind.spec) <|
  kind.observations

/- What a configuration of a kind may set. -/
def declared : Kind → Declaration
  | .task => Declared.task
  | .taskRun => Declared.taskRun
  | .pipeline => Declared.pipeline
  | .pipelineRun => Declared.pipelineRun

end Kind

end Converge
