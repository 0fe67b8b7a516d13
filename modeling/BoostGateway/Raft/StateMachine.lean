import BoostGateway.Raft.Origins
import BoostGateway.Raft.Reference

/-!
# A service on a Raft cluster

A service runs a process on every node, hands its commands to `append_command` and changes its state
in the apply callback. A process that comes up has forgotten its state, and the node replays the
entries it had applied. `ServiceCluster.step` is a step of the nodes with what it does to the
services, `ServiceCluster.append` one in which a service calls `append_command`.
-/

namespace BoostGateway.Raft

open List

structure StateMachine (S : Type) where
  /-- The process comes up again. -/
  restart : S → S
  /-- The apply callback. -/
  apply : LogEntry → S → S × Verdict

structure ServiceCluster (S : Type) where
  raft : Cluster := {}
  services : NodeId → S
  verdicts : NodeId → Verdict := fun _ => .accepted

namespace ServiceCluster

variable {S : Type}

def setService (s : ServiceCluster S) (v : NodeId) (service : S) : ServiceCluster S :=
  { s with services := Function.update s.services v service }

def isUp (s : ServiceCluster S) (v : NodeId) : Bool := (s.raft.procs v).host.node.applyCb

def deliver (machine : StateMachine S) (s : ServiceCluster S) (record : NodeId × Output) :
    ServiceCluster S :=
  match record with
  | (v, .applied _ entry) =>
    let (service, verdict) := machine.apply entry (s.services v)
    { s.setService v service with verdicts := Function.update s.verdicts v verdict }
  | _ => s

section Steps

variable (lib : Libraries) (setup : ClusterConfig)

/-- A step but `append_command`. A node that has never come up only starts. -/
def step (machine : StateMachine S) (event : Event) (s : ServiceCluster S) :
    Option (ServiceCluster S) :=
  match event.action with
  | .appendCommand _ => none
  | .boot callback =>
    if callback then
      (Cluster.step lib setup event s.raft).map fun c =>
        ({ s with raft := c }).setService event.node (machine.restart (s.services event.node))
    else none
  | .callbackReturned verdict =>
    if s.isUp event.node ∧ verdict = s.verdicts event.node then
      (Cluster.step lib setup event s.raft).map fun c => { s with raft := c }
    else none
  | _ =>
    if s.isUp event.node then
      (Cluster.step lib setup event s.raft).map fun c =>
        (newOutputs s.raft c).foldl (deliver machine) { s with raft := c }
    else none

def append (v : NodeId) (command : Bytes) (io : List IoOutcome) (s : ServiceCluster S) :
    Option (ServiceCluster S) :=
  if s.isUp v then
    (Cluster.step lib setup { node := v, action := .appendCommand command, io } s.raft).map fun c =>
      { s with raft := c }
  else none

end Steps

/-- What a step of a node does to its service. -/
inductive Served (machine : StateMachine S) (v : NodeId) (s s' : ServiceCluster S) : Prop where
  | same : (v, .booted) ∉ newOutputs s.raft s'.raft →
      (∀ index entry, (v, .applied index entry) ∉ newOutputs s.raft s'.raft) →
      s'.services = s.services → s'.verdicts = s.verdicts → Served machine v s s'
  | restarted : newOutputs s.raft s'.raft = [(v, .booted)] →
      s'.services = Function.update s.services v (machine.restart (s.services v)) →
      s'.verdicts = s.verdicts → Served machine v s s'
  | applied (index : Nat) (entry : LogEntry) :
      newOutputs s.raft s'.raft = [(v, .applied index entry)] →
      s'.services = Function.update s.services v (machine.apply entry (s.services v)).1 →
      s'.verdicts = Function.update s.verdicts v (machine.apply entry (s.services v)).2 →
      Served machine v s s'

/-- A step of a node, and what it does to its service. -/
structure Steps (lib : Libraries) (setup : ClusterConfig) (machine : StateMachine S)
    (event : Event) (s s' : ServiceCluster S) : Prop where
  raft : Cluster.step lib setup event s.raft = some s'.raft
  command : ∀ command, event.action ≠ .appendCommand command
  up : event.action = .boot true ∨ s.isUp event.node = true
  verdict : ∀ verdict, event.action = .callbackReturned verdict → verdict = s.verdicts event.node
  served : Served machine event.node s s'

section Steps

variable {lib : Libraries} {setup : ClusterConfig} {machine : StateMachine S} {event : Event}
  {s s' : ServiceCluster S}

theorem deliver_of_silent {outs : List (NodeId × Output)}
    (h : ∀ v index entry, (v, Output.applied index entry) ∉ outs) (s : ServiceCluster S) :
    outs.foldl (deliver machine) s = s := by
  induction outs with
  | nil => rfl
  | cons rec rest ih =>
    have hrec : deliver machine s rec = s := by
      obtain ⟨v, output⟩ := rec
      cases output with
      | applied index entry => exact absurd mem_cons_self (h v index entry)
      | _ => rfl
    rw [foldl_cons, hrec]
    exact ih fun v index entry hmem => h v index entry (mem_cons_of_mem _ hmem)

theorem foldl_deliver_raft (outs : List (NodeId × Output)) (s : ServiceCluster S) :
    (outs.foldl (deliver machine) s).raft = s.raft := by
  induction outs generalizing s with
  | nil => rfl
  | cons rec rest ih =>
    rw [foldl_cons, ih]
    obtain ⟨v, output⟩ := rec
    cases output <;> rfl

/-- A section that calls back puts out nothing else. -/
theorem applied_alone {cfg : RaftConfig} {p : Process} {act : Action}
    {next : Process × List Output} (h : Process.Advances lib cfg p act next) :
    (∀ index entry, Output.applied index entry ∉ next.2) ∨
      ∃ index entry, next.2 = [Output.applied index entry] := by
  by_cases hcallback : act = .callback
  · subst hcallback
    cases h with
    | @callback purpose index entry rest hpipe =>
      rcases Process.callBack_cases purpose index entry rest p with ⟨_, hcase⟩ | ⟨_, hcase⟩
      · refine .inl fun index entry hmem => ?_
        rw [hcase] at hmem
        obtain ⟨_, _, _, heq⟩ := Process.mem_abandonDelivery hmem
        cases heq
      · rw [hcase]
        split
        · exact .inr ⟨index, entry, rfl⟩
        · exact .inl fun index entry hmem => by cases hmem
  · refine .inl fun index entry hmem => hcallback ?_
    have hemits := Process.emits_of_mem h hmem
    cases act with
    | callback => rfl
    | _ => cases hemits

theorem booted_of_mem_newOutputs {c c' : Cluster} {v : NodeId}
    (hstep : Cluster.step lib setup event c = some c')
    (h : (v, Output.booted) ∈ newOutputs c c') : ∃ callback, event.action = .boot callback := by
  obtain ⟨_, _, hadv, hout, _⟩ := advances_of_mem_newOutputs hstep h
  have hemits := Process.emits_of_mem hadv hout
  cases hact : event.action with
  | boot callback => exact ⟨callback, rfl⟩
  | _ =>
    rw [hact] at hemits
    cases hemits

/-- The calls of the callback are those that the node puts out. -/
theorem served_deliver {c : Cluster} (hboot : ∀ callback, event.action ≠ .boot callback)
    (hstep : Cluster.step lib setup event s.raft = some c) :
    Served machine event.node s
      ((newOutputs s.raft c).foldl (deliver machine) { s with raft := c }) := by
  have hnew : ∀ v, (v, Output.booted) ∉ newOutputs s.raft c := fun v hmem =>
    (booted_of_mem_newOutputs hstep hmem).elim hboot
  obtain ⟨_, _, p, outputs, hadv, rfl⟩ := step_eq_some hstep
  rw [newOutputs_putOut]
  rcases applied_alone (Process.advances_of_advance hadv) with hnone | ⟨index, entry, hone⟩
  · have hsilent : ∀ v index entry,
        (v, Output.applied index entry) ∉ outputs.map fun output => (event.node, output) := by
      intro v index entry hmem
      obtain ⟨output, hout, heq⟩ := mem_map.mp hmem
      exact hnone index entry ((Prod.mk.inj heq).2 ▸ hout)
    rw [deliver_of_silent hsilent]
    refine .same (hnew _) (fun index entry => ?_) rfl rfl
    rw [newOutputs_putOut]
    exact hsilent _ index entry
  · subst hone
    exact .applied index entry (newOutputs_putOut _ _ _ _) rfl rfl

theorem steps_of_step (h : step lib setup machine event s = some s') :
    Steps lib setup machine event s s' := by
  unfold step at h
  split at h
  · cases h
  next callback hact =>
    split at h
    next hcallback =>
      obtain ⟨c, hstep, rfl⟩ := Option.map_eq_some_iff.mp h
      refine ⟨hstep, fun _ => by simp [hact], .inl (by rw [hact, hcallback]),
        fun _ => by simp [hact], .restarted ?_ rfl rfl⟩
      obtain ⟨_, _, p, outputs, hadvance, rfl⟩ := step_eq_some hstep
      have hbooted : outputs = [.booted] := by
        have hadv := Process.advances_of_advance hadvance
        rw [hact] at hadv
        cases hadv
        rfl
      exact (newOutputs_putOut _ _ _ _).trans (by rw [hbooted]; rfl)
    · cases h
  next verd hact =>
    split at h
    next hguard =>
      obtain ⟨c, hstep, rfl⟩ := Option.map_eq_some_iff.mp h
      refine ⟨hstep, fun _ => by simp [hact], .inr hguard.1, fun other hother => ?_,
        .same (fun hmem => ?_) (fun index entry hmem => ?_) rfl rfl⟩
      · exact (Action.callbackReturned.inj (hother.symm.trans hact)).trans hguard.2
      · obtain ⟨callback, hboot⟩ := booted_of_mem_newOutputs hstep hmem
        cases hact.symm.trans hboot
      · obtain ⟨_, _, hadv, hout, _⟩ := advances_of_mem_newOutputs hstep hmem
        have hemits := Process.emits_of_mem hadv hout
        rw [hact] at hemits
        cases hemits
    · cases h
  next happend hboot hreturned =>
    split at h
    next hup =>
      obtain ⟨c, hstep, rfl⟩ := Option.map_eq_some_iff.mp h
      have hraft : ((newOutputs s.raft c).foldl (deliver machine) { s with raft := c }).raft = c :=
        foldl_deliver_raft _ _
      refine ⟨hstep.trans (congrArg some hraft.symm), happend, .inr hup, ?_,
        served_deliver hboot hstep⟩
      exact fun verd hact => absurd hact (hreturned verd)
    · cases h

/-- A call of `append_command`. It leaves the services alone. -/
structure Appends (lib : Libraries) (setup : ClusterConfig) (v : NodeId) (command : Bytes)
    (io : List IoOutcome) (s s' : ServiceCluster S) : Prop where
  raft : Cluster.step lib setup { node := v, action := .appendCommand command, io } s.raft =
    some s'.raft
  up : s.isUp v = true
  services : s'.services = s.services
  verdicts : s'.verdicts = s.verdicts

theorem appends_of_append {v : NodeId} {cmd : Bytes} {io : List IoOutcome}
    (h : append lib setup v cmd io s = some s') : Appends lib setup v cmd io s s' := by
  unfold append at h
  split at h
  next hup =>
    obtain ⟨c, hstep, rfl⟩ := Option.map_eq_some_iff.mp h
    exact ⟨hstep, hup, rfl, rfl⟩
  · cases h

theorem step_quick : step (S := S) reference = step quick := by
  funext setup machine event s
  simp [step, Raft.step_quick]

theorem append_quick : append (S := S) reference = append quick := by
  funext setup v command io s
  simp [append, Raft.step_quick]

end Steps

end ServiceCluster

end BoostGateway.Raft
