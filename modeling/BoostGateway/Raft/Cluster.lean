import BoostGateway.Raft.Process

/-!
# A cluster of nodes

The network may lose, delay and duplicate messages: it is the history of what the nodes have put
out, and a message in it can be delivered any number of times or never. A node can go down at any
moment and come up from its state file, and every file write can fail.
-/

namespace BoostGateway.Raft

/-- Distinct peers, and a storage directory for each. -/
structure ClusterConfig where
  peers : List NodeId
  storageDir : NodeId → Bytes
  nodup : peers.Nodup
  storage : ∀ v, storageDir v ≠ []

def ClusterConfig.node (setup : ClusterConfig) (v : NodeId) : RaftConfig where
  nodeId := v
  storageDir := setup.storageDir v
  peers := setup.peers

def ClusterConfig.members (setup : ClusterConfig) : Finset NodeId :=
  setup.peers.toFinset

section Config

variable {setup : ClusterConfig} {v p : NodeId}

theorem ClusterConfig.allPeers_node (hv : v ∈ setup.peers) :
    (setup.node v).allPeers = setup.peers := by
  cases hpeers : setup.peers with
  | nil => simp [hpeers] at hv
  | cons => simp [RaftConfig.allPeers, ClusterConfig.node, hpeers]

theorem ClusterConfig.mem_targets (hv : v ∈ setup.peers) :
    p ∈ (setup.node v).targets ↔ p ∈ setup.peers ∧ p ≠ v := by
  rw [RaftConfig.targets, allPeers_node hv]
  simp [ClusterConfig.node]

theorem ClusterConfig.targets_nodup (hv : v ∈ setup.peers) : (setup.node v).targets.Nodup := by
  rw [RaftConfig.targets, allPeers_node hv]
  exact setup.nodup.filter _

theorem ClusterConfig.quorumSize_node (hv : v ∈ setup.peers) :
    (setup.node v).quorumSize = setup.members.card / 2 + 1 := by
  rw [RaftConfig.quorumSize, allPeers_node hv, ClusterConfig.members,
    List.toFinset_card_of_nodup setup.nodup]

end Config

structure Cluster where
  procs : NodeId → Process := fun _ => {}
  history : List (NodeId × Output) := []

structure Event where
  node : NodeId
  action : Action
  io : List IoOutcome := []

namespace Cluster

def hasReply (c : Cluster) (peer : NodeId) (args : AppendEntriesArgs)
    (reply : AppendEntriesReply) : Bool :=
  c.history.any fun record =>
    match record with
    | (src, .appendEntriesReply args' reply' _) =>
      src = peer && args' = args && reply' = reply
    | _ => false

/-- What an action of a node takes from the network is there. -/
def delivers (c : Cluster) (v : NodeId) (action : Action) : Bool :=
  match action with
  | .requestVote args => c.history.any fun record => record.2 = .requestVote v args
  | .appendEntries args => c.history.any fun record => record.2 = .appendEntries v args
  | .voteReplied (.reply reply) =>
    match (c.procs v).worker with
    | .awaitingVote args peer _ => c.history.contains (peer, .requestVoteReply args reply)
    | _ => false
  | .heartbeatReplied thread (.reply reply) =>
    match (c.procs v).beat thread with
    | some (.awaiting peer args _) => c.hasReply peer args reply
    | _ => false
  | .entriesReplied (.reply reply) =>
    match (c.procs v).pipeline with
    | .awaiting _ _ _ peer args _ => c.hasReply peer args reply
    | _ => false
  | _ => true

section Steps

variable (lib : Libraries) (setup : ClusterConfig)

/-- One step of the cluster, if the node can take it. -/
def step (event : Event) (c : Cluster) : Option Cluster :=
  if event.node ∈ setup.peers ∧ c.delivers event.node event.action then
    match (c.procs event.node).step lib (setup.node event.node) event.action event.io with
    | some (p, outputs) =>
      some
        { procs := Function.update c.procs event.node p
          history := c.history ++ outputs.map (fun output => (event.node, output)) }
    | none => none
  else none

/-- What steps that meet a condition lead to from the start. -/
inductive Run (condition : Cluster → Event → Prop) : Cluster → Prop where
  | init : Run condition {}
  | step {c c' : Cluster} {event : Event} :
      Run condition c → condition c event → step lib setup event c = some c' →
      Run condition c'

/-- Take a list of steps, as long as they meet a condition. -/
def exec (condition : Cluster → Event → Prop) [∀ c event, Decidable (condition c event)]
    (events : List Event) (c : Cluster) : Option Cluster :=
  events.foldlM (fun c event => if condition c event then step lib setup event c else none) c

variable {lib setup} in
theorem Run.exec {condition : Cluster → Event → Prop} [∀ c event, Decidable (condition c event)]
    {events : List Event} {c c' : Cluster} (hrun : Run lib setup condition c)
    (h : Cluster.exec lib setup condition events c = some c') : Run lib setup condition c' := by
  induction events generalizing c with
  | nil => exact Option.some.inj h ▸ hrun
  | cons event rest ih =>
    simp only [Cluster.exec, List.foldlM_cons, Option.bind_eq_bind, Option.bind_eq_some_iff] at h
    obtain ⟨middle, hstep, hrest⟩ := h
    split at hstep
    next hcondition => exact ih (hrun.step hcondition hstep) hrest
    · cases hstep

end Steps

end Cluster

end BoostGateway.Raft
