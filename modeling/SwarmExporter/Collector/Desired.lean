import Mathlib.Data.BitVec
import SwarmExporter.Collector.Types
import SwarmExporter.Lib.Text

/-!
# Desired and schedulable replicas

A service's desired and schedulable replicas from its metadata and a node snapshot
(`replicaCounts`), with Swarm's placement rules for global services: which nodes a task could be
placed on, by node state, platform and constraints. `labelsForMetadata` is the label identity of a
service, the same for setting and deleting its series.

Lowercasing beyond ASCII and the parsing of addresses and subnets are the standard library's and
ipnet's; they are the functions of `HostText`, about which nothing is assumed here.
-/

namespace SwarmExporter

open Lib
open Docker (Node Placement Platform)

/-! ## Addresses and subnets -/

inductive IpAddr where
  | v4 (addr : BitVec 32)
  | v6 (addr : BitVec 128)
  deriving DecidableEq, Repr

/-- The IPv4 form of an IPv4-mapped IPv6 address, any other address as it is. -/
def IpAddr.toCanonical : IpAddr → IpAddr
  | .v4 addr => .v4 addr
  | .v6 addr => if addr >>> 32 = 0xffff#128 then .v4 (addr.setWidth 32) else .v6 addr

/-- A subnet of addresses of `width` bits. -/
structure Subnet (width : Nat) where
  addr : BitVec width
  prefixLen : Nat
  valid : prefixLen ≤ width
  deriving DecidableEq, Repr

namespace Subnet

variable {width : Nat}

/-- The first `prefixLen` bits set. -/
def netmask (net : Subnet width) : BitVec width :=
  BitVec.allOnes width <<< (width - net.prefixLen)

def network (net : Subnet width) : BitVec width := net.addr &&& net.netmask

def contains (net : Subnet width) (addr : BitVec width) : Bool :=
  addr &&& net.netmask == net.network

end Subnet

inductive IpNet where
  | v4 (net : Subnet 32)
  | v6 (net : Subnet 128)
  deriving DecidableEq, Repr

def IpNet.contains : IpNet → IpAddr → Bool
  | .v4 net, .v4 addr => net.contains addr
  | .v6 net, .v6 addr => net.contains addr
  | _, _ => false

/-- Functions of the standard library and of ipnet on text. -/
class HostText where
  toLowercase : String → String
  parseIpAddr : String → Option IpAddr
  parseIpNet : String → Option IpNet

namespace Sample

/-- Lowercasing of ASCII text; no text is an address. -/
scoped instance text : HostText where
  toLowercase text := String.ofList (text.toList.map Char.toLower)
  parseIpAddr _ := none
  parseIpNet _ := none

end Sample

/-! ## Text -/

/-- Unicode `White_Space`. -/
def isWhiteSpace (char : Char) : Bool :=
  let code := char.toNat
  (0x9 ≤ code && code ≤ 0xD) || code == 0x20 || code == 0x85 || code == 0xA0 || code == 0x1680 ||
    (0x2000 ≤ code && code ≤ 0x200A) || code == 0x2028 || code == 0x2029 || code == 0x202F ||
    code == 0x205F || code == 0x3000

def trimSpace (text : List Char) : List Char :=
  ((text.dropWhile isWhiteSpace).reverse.dropWhile isWhiteSpace).reverse

/-- What stands before and after the first `separator` of `text`. -/
def splitOnce (separator : List Char) : List Char → Option (List Char × List Char)
  | [] => if separator.isEmpty then some ([], []) else none
  | char :: rest =>
    if separator.isPrefixOf (char :: rest) then some ([], (char :: rest).drop separator.length)
    else (splitOnce separator rest).map fun split => (char :: split.1, split.2)

section Placement

variable [HostText]

/-- Whether `left` and `right` are equal ignoring case. -/
def equalFold (left right : String) : Bool :=
  left.toList.map Char.toLower == right.toList.map Char.toLower ||
    HostText.toLowercase left == HostText.toLowercase right

/-! ## Constraints -/

inductive ConstraintOp where
  | equal
  | notEqual
  deriving DecidableEq, Repr

def ConstraintOp.asStr : ConstraintOp → String
  | .equal => "=="
  | .notEqual => "!="

def nodeLabelsPrefix : String := "node.labels."
def engineLabelsPrefix : String := "engine.labels."

/-- Splits `key op value`: `==` is tried before `!=`, and the expression is split on the first
occurrence of the first operator it contains. -/
def parseConstraint (constraint : String) : Option (String × ConstraintOp × String) := do
  let operator ← [ConstraintOp.equal, .notEqual].find? fun operator =>
    (splitOnce operator.asStr.toList constraint.toList).isSome
  let (key, expected) ← splitOnce operator.asStr.toList constraint.toList
  let key := trimSpace key
  let expected := trimSpace expected
  guard (!key.isEmpty && !expected.isEmpty)
  return (String.ofList key, operator, String.ofList expected)

/-- The label name after `pre`, when `key` is `pre` (in any case) and a non-empty name. -/
def labelKey (key pre : String) : Option String :=
  if key.utf8ByteSize ≤ pre.utf8ByteSize then none
  else
    match splitAtByte pre.utf8ByteSize key.toList with
    | none => none
    | some (head, label) =>
      if equalFold (String.ofList head) pre then some (String.ofList label) else none

/-- The outcome of a comparison, inverted for `!=`. -/
def ConstraintOp.apply (operator : ConstraintOp) (matched : Bool) : Bool :=
  if operator = .notEqual then !matched else matched

/-- A case-insensitive comparison, inverted for `!=`. -/
def matchConstraintValue (operator : ConstraintOp) (expected candidate : String) : Bool :=
  operator.apply (equalFold expected candidate)

/-- A subnet written as IPv4-mapped IPv6 as the IPv4 subnet it is. -/
def canonicalSubnet (subnet : IpNet) : IpNet :=
  match subnet with
  | .v4 _ => subnet
  | .v6 net =>
    match (IpAddr.v6 net.network).toCanonical with
    | .v6 _ => subnet
    | .v4 network =>
      if h : net.prefixLen - 96 ≤ 32 then .v4 ⟨network, net.prefixLen - 96, h⟩ else subnet

/-- The node address against one IP or a CIDR subnet; a value that is neither never matches,
whatever the operator. -/
def matchNodeIpConstraint (operator : ConstraintOp) (expected nodeAddr : String) : Bool :=
  let nodeIp := (HostText.parseIpAddr nodeAddr).map IpAddr.toCanonical
  match HostText.parseIpAddr expected with
  | some expectedIp => operator.apply (nodeIp == some expectedIp.toCanonical)
  | none =>
    match HostText.parseIpNet expected with
    | some subnet => operator.apply (nodeIp.any (canonicalSubnet subnet).contains)
    | none => false

/-- One parsed constraint against `node`, with swarmkit's key dispatch. -/
def nodeMatchesConstraint (node : Node) (key : String) (operator : ConstraintOp)
    (expected : String) : Bool :=
  let description := node.description
  if equalFold key "node.id" then matchConstraintValue operator expected node.id
  else if equalFold key "node.hostname" then
    matchConstraintValue operator expected description.hostname
  else if equalFold key "node.ip" then matchNodeIpConstraint operator expected node.status.addr
  else if equalFold key "node.role" then matchConstraintValue operator expected node.spec.role
  else if equalFold key "node.platform.os" then
    matchConstraintValue operator expected description.platform.os
  else if equalFold key "node.platform.arch" then
    matchConstraintValue operator expected description.platform.architecture
  else
    match labelKey key nodeLabelsPrefix with
    | some label => matchConstraintValue operator expected (node.spec.labels.getD label "")
    | none =>
      match labelKey key engineLabelsPrefix with
      | some label =>
        matchConstraintValue operator expected (description.engine.labels.getD label "")
      | none => false

/-- Whether `node` meets every constraint. -/
def constraintsMatch (node : Node) (constraints : List String) : Bool :=
  constraints.all fun constraint =>
    match parseConstraint constraint with
    | some (key, operator, expected) => nodeMatchesConstraint node key operator expected
    | none => false

/-! ## Eligible nodes -/

/-- Swarm's scheduling preconditions: the node is `ready` and `active`. -/
def isNodeSchedulable (node : Option Node) : Bool :=
  node.any fun node => node.status.state == "ready" && node.spec.availability == "active"

/-- Maps the kernel-style architecture names nodes report to the names service platforms use. -/
def normalizeArch (arch : String) : String :=
  let lower := HostText.toLowercase arch
  if ["x86_64", "x86-64", "amd64"].contains lower then "amd64"
  else if ["aarch64", "arm64"].contains lower then "arm64"
  else if ["i386", "i686", "386"].contains lower then "386"
  else if ["armv7l", "armv7", "armhf", "arm"].contains lower then "arm"
  else lower

/-- Whether the node's platform matches any of `required`; an empty OS or architecture matches
any. -/
def platformMatches (node : Node) (required : List Platform) : Bool :=
  let nodeOs := HostText.toLowercase node.description.platform.os
  let nodeArch := normalizeArch node.description.platform.architecture
  required.any fun platform =>
    let os := HostText.toLowercase platform.os
    let arch := normalizeArch platform.architecture
    (os.isEmpty || os == nodeOs) && (arch.isEmpty || arch == nodeArch)

/-- Whether a task with `placement` could be placed on `node`. -/
def nodeEligible (node : Option Node) (placement : Option Placement) : Bool :=
  match node with
  | none => false
  | some node =>
    if !isNodeSchedulable (some node) then false
    else
      match placement with
      | none => true
      | some placement =>
        if !placement.platforms.isEmpty && !platformMatches node placement.platforms then false
        else constraintsMatch node placement.constraints

/-- How many nodes of `nodes` a task with `placement` could be placed on. -/
def countEligibleNodes (nodes : List Node) (placement : Option Placement) : Nat :=
  nodes.countP fun node => nodeEligible (some node) placement

/-- The placement cached in `metadata`; none when the service has neither constraints nor
platforms. -/
def placementFromMetadata (metadata : ServiceMetadata) : Option Placement :=
  if metadata.constraints.isEmpty && metadata.platforms.isEmpty then none
  else some ⟨metadata.constraints, metadata.platforms⟩

/-- A service's desired and schedulable replicas from its metadata and a node snapshot. -/
def replicaCounts (metadata : ServiceMetadata) (nodes : List Node) : Gauge × Gauge :=
  let eligible := fromInt (countEligibleNodes nodes (placementFromMetadata metadata))
  match metadata.serviceMode with
  | .replicated => (metadata.configuredReplicas, min metadata.configuredReplicas eligible)
  | .replicatedJob => (metadata.configuredReplicas, metadata.configuredReplicas)
  | .global | .globalJob => (eligible, eligible)

/-- The counts do not depend on the desired replicas the metadata already holds. -/
@[simp] theorem replicaCounts_setDesired (metadata : ServiceMetadata) (nodes : List Node)
    (desired : Gauge) :
    replicaCounts { metadata with desiredReplicas := desired } nodes = replicaCounts metadata nodes :=
  rfl

/-- Whether a mode's counts depend on the nodes: `global` and `global-job`. -/
def Mode.nodeDependent (mode : Mode) : Bool :=
  mode == .global || mode == .globalJob

/-- The desired replicas of the other modes are the configured ones, whatever the nodes. -/
theorem replicaCounts_fst_of_not_nodeDependent {metadata : ServiceMetadata}
    (h : metadata.serviceMode.nodeDependent = false) (nodes : List Node) :
    (replicaCounts metadata nodes).1 = metadata.configuredReplicas := by
  unfold replicaCounts
  cases hmode : metadata.serviceMode <;> simp_all [Mode.nodeDependent]

end Placement

/-! ## The label identity and the two families -/

/-- The labels every per-service family starts with. -/
def baseLabelNames : List String :=
  [labelStack, labelService, labelServiceMode, labelDisplayName]

/-- The label set of the service `metadata` describes, keys sanitized, the same for setting and
deleting its series. -/
def labelsForMetadata (metadata : ServiceMetadata) : Labels :=
  let base : Labels := (∅ : Labels)
    |>.insert labelStack metadata.stack
    |>.insert labelService metadata.service
    |>.insert labelServiceMode metadata.serviceMode.asStr
    |>.insert labelDisplayName (displayName metadata.stack metadata.service)
  sanitizeMetricLabels
    (metadata.customLabels.toList.foldl (fun out entry => out.insert entry.1 entry.2) base)

/-- The identity does not depend on the desired replicas. -/
@[simp] theorem labelsForMetadata_setDesired (metadata : ServiceMetadata) (desired : Gauge) :
    labelsForMetadata { metadata with desiredReplicas := desired } = labelsForMetadata metadata :=
  rfl

/-- `swarm_service_desired_replicas` and `swarm_service_schedulable_replicas`. -/
structure ReplicaGauges where
  desired : GaugeVec
  schedulable : GaugeVec
  deriving DecidableEq

namespace ReplicaGauges

def desiredReplicasHelp : String :=
  "Number of desired replicas for a Swarm service (replicated: configured replicas; " ++
    "replicated-job: total completions; global and global-job: eligible nodes)."

def schedulableReplicasHelp : String :=
  "Number of replicas that can currently be scheduled given node availability and placement " ++
    "constraints (replicated: min(configured, eligible_nodes); global: eligible nodes; jobs and " ++
    "restart-condition none services: 0)."

/-- The two families, labelled with the base labels plus `custom`. -/
def new (custom : CustomLabels) : ReplicaGauges :=
  let names := sanitizeLabelNames (baseLabelNames ++ custom.sanitizedNames)
  { desired := .new ⟨"swarm_service_desired_replicas", desiredReplicasHelp, names⟩
    schedulable := .new ⟨"swarm_service_schedulable_replicas", schedulableReplicasHelp, names⟩ }

/-- Sets the desired replicas of the service `metadata` describes. -/
def setDesired (gauges : ReplicaGauges) (metadata : ServiceMetadata) (value : Gauge) :
    Except LabelsMismatch ReplicaGauges := do
  let desired ← gauges.desired.setWith (labelsForMetadata metadata) value
  return { gauges with desired }

/-- The schedulable value as it is exported: 0 for jobs and restart-condition `none` services. -/
def schedulableValue (metadata : ServiceMetadata) (value : Gauge) : Gauge :=
  if metadata.restartConditionNone || isJobMode metadata.serviceMode.asStr then 0 else value

/-- Sets the schedulable replicas. -/
def setSchedulable (gauges : ReplicaGauges) (metadata : ServiceMetadata) (value : Gauge) :
    Except LabelsMismatch ReplicaGauges := do
  let schedulable ←
    gauges.schedulable.setWith (labelsForMetadata metadata) (schedulableValue metadata value)
  return { gauges with schedulable }

end ReplicaGauges

end SwarmExporter
