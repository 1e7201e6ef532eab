import SwarmExporter.Basic

/-!
# The Engine API objects the exporter reads

The swarm, container and events objects of the Engine API, with only the fields the exporter uses and
the `Annotations` of a spec inline. A field Go holds behind a pointer is an `Option`, so its presence
stays visible, and a state or any other enum-like field is its wire text: a newer daemon may send a
text no list of this crate knows.
-/

namespace SwarmExporter.Docker

/-- A Go `time.Time` decoded from the wire. -/
structure GoTime where
  timestamp : Timestamp
  deriving DecidableEq, Repr

namespace GoTime

/-- Go's zero `time.Time`, `0001-01-01T00:00:00Z`, in seconds since the epoch. -/
def goZeroSeconds : Int := -62135596800

def goZeroTime : Timestamp := goZeroSeconds * 1000000000

instance : Inhabited GoTime := ⟨⟨goZeroTime⟩⟩

/-- Go's `Time.IsZero`. -/
def isZero (time : GoTime) : Bool := time.timestamp == goZeroTime

/-- Go's `Time.Unix`: whole seconds since the epoch, rounded down. -/
def unix (time : GoTime) : Int :=
  let seconds := time.timestamp.tdiv 1000000000
  if time.timestamp.tmod 1000000000 < 0 then seconds - 1 else seconds

end GoTime

/-- A JSON object whose presence is all that is read. -/
structure Present where
  deriving DecidableEq, Inhabited, Repr

structure Version where
  index : Nat := 0
  deriving DecidableEq, Inhabited, Repr

structure Platform where
  architecture : String := ""
  os : String := ""
  deriving DecidableEq, Inhabited, Repr

structure Placement where
  constraints : List String := []
  platforms : List Platform := []
  deriving DecidableEq, Inhabited, Repr

structure RestartPolicy where
  condition : String := ""
  deriving DecidableEq, Inhabited, Repr

structure TaskSpec where
  placement : Option Placement := none
  restartPolicy : Option RestartPolicy := none
  deriving DecidableEq, Inhabited, Repr

structure ReplicatedService where
  replicas : Option Nat := none
  deriving DecidableEq, Inhabited, Repr

structure ReplicatedJob where
  maxConcurrent : Option Nat := none
  totalCompletions : Option Nat := none
  deriving DecidableEq, Inhabited, Repr

structure ServiceMode where
  replicated : Option ReplicatedService := none
  global : Option Present := none
  replicatedJob : Option ReplicatedJob := none
  globalJob : Option Present := none
  deriving DecidableEq, Inhabited, Repr

structure ServiceSpec where
  name : String := ""
  labels : Labels := ∅
  taskTemplate : TaskSpec := {}
  mode : ServiceMode := {}
  deriving DecidableEq, Inhabited, Repr

structure UpdateStatus where
  state : String := ""
  startedAt : Option GoTime := none
  completedAt : Option GoTime := none
  deriving DecidableEq, Inhabited, Repr

structure JobStatus where
  jobIteration : Version := {}
  deriving DecidableEq, Inhabited, Repr

structure Service where
  id : String := ""
  spec : ServiceSpec := {}
  updateStatus : Option UpdateStatus := none
  jobStatus : Option JobStatus := none
  deriving DecidableEq, Inhabited, Repr

structure NodeSpec where
  labels : Labels := ∅
  role : String := ""
  availability : String := ""
  deriving DecidableEq, Inhabited, Repr

structure EngineDescription where
  labels : Labels := ∅
  deriving DecidableEq, Inhabited, Repr

structure NodeDescription where
  hostname : String := ""
  platform : Platform := {}
  engine : EngineDescription := {}
  deriving DecidableEq, Inhabited, Repr

structure NodeStatus where
  state : String := ""
  addr : String := ""
  deriving DecidableEq, Inhabited, Repr

structure Node where
  id : String := ""
  spec : NodeSpec := {}
  description : NodeDescription := {}
  status : NodeStatus := {}
  deriving DecidableEq, Inhabited, Repr

structure TaskStatus where
  timestamp : GoTime := default
  state : String := ""
  deriving DecidableEq, Inhabited, Repr

structure Task where
  version : Version := {}
  createdAt : GoTime := default
  serviceId : String := ""
  slot : Int := 0
  nodeId : String := ""
  status : TaskStatus := {}
  desiredState : String := ""
  jobIteration : Option Version := none
  deriving DecidableEq, Inhabited, Repr

/-- One entry of the container list. -/
structure ContainerSummary where
  id : String := ""
  names : List String := []
  labels : Labels := ∅
  state : String := ""
  deriving DecidableEq, Inhabited, Repr

structure Health where
  status : String := ""
  deriving DecidableEq, Inhabited, Repr

structure ContainerState where
  exitCode : Int := 0
  health : Option Health := none
  deriving DecidableEq, Inhabited, Repr

structure ContainerConfig where
  /-- Only whether one is configured is read. -/
  healthcheck : Option Present := none
  deriving DecidableEq, Inhabited, Repr

structure ContainerInspect where
  state : Option ContainerState := none
  config : Option ContainerConfig := none
  deriving DecidableEq, Inhabited, Repr

structure Actor where
  id : String := ""
  deriving DecidableEq, Inhabited, Repr

structure Event where
  kind : String := ""
  action : String := ""
  actor : Actor := {}
  time : Int := 0
  timeNano : Int := 0
  deriving DecidableEq, Inhabited, Repr

/-- The kinds of a failed call that the exporter tells apart. -/
inductive ErrorKind where
  | notFound
  | timeout
  | cancelled
  | other
  deriving DecidableEq, Inhabited, Repr

/-- A failed Docker call. -/
structure Error where
  kind : ErrorKind
  message : String := ""
  deriving DecidableEq, Inhabited, Repr

/-- Whether the engine answered 404: the service is gone. -/
def Error.isNotFound (error : Error) : Bool := error.kind == .notFound

/-- How an event stream ended. -/
inductive StreamErrorKind where
  /-- The body ended cleanly between two events. -/
  | eof
  /-- The connection broke, or the body ended inside an event. -/
  | unexpectedEof
  | decode
  /-- The source of the events went away without saying why. -/
  | closed
  deriving DecidableEq, Inhabited, Repr

/-- Why an event stream ended; every stream ends with one. -/
structure StreamError where
  kind : StreamErrorKind
  message : String := ""
  deriving DecidableEq, Inhabited, Repr

/-- A failed Docker call with the context it is logged under. -/
structure CallError where
  context : String
  source : Error
  deriving DecidableEq, Inhabited, Repr

end SwarmExporter.Docker
