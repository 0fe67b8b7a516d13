import BoostGateway.Raft.Deliveries
import BoostGateway.Raft.Simulation

/-!
# Where the entries of a run come from

An entry is made where a leader stores a command at the end of its log (`storesCommand`). From there
it moves with its index into the state file, into messages and logs, and to the apply callback.
`ClusterTraced known` says that all entries of a cluster are known at their index.
-/

namespace BoostGateway.Raft

open List Process

def Traced (known : Nat → LogEntry → Prop) (after : Nat) (log : List LogEntry) : Prop :=
  ∀ i entry, log[i]? = some entry → known (after + i + 1) entry

structure ProcTraced (known : Nat → LogEntry → Prop) (p : Process) : Prop where
  log : Traced known 0 p.host.node.log
  disk : Traced known 0 p.host.durable.log
  pending : ∀ entry ∈ p.pipeline.pending, known entry.1 entry.2

def OutputTraced (known : Nat → LogEntry → Prop) : Output → Prop
  | .appendEntries _ args => Traced known args.prevLogIndex args.entries
  | .applied index entry => known index entry
  | _ => True

structure ClusterTraced (known : Nat → LogEntry → Prop) (c : Cluster) : Prop where
  procs : ∀ v, ProcTraced known (c.procs v)
  history : ∀ v output, (v, output) ∈ c.history → OutputTraced known output

section Logs

variable {known known' : Nat → LogEntry → Prop} {after : Nat} {log entries : List LogEntry}

theorem Traced.nil : Traced known after [] := nofun

theorem Traced.mono (h : Traced known after log)
    (hknown : ∀ index entry, known index entry → known' index entry) : Traced known' after log :=
  fun i entry hentry => hknown _ _ (h i entry hentry)

theorem Traced.of_isPrefix (h : Traced known after log) (hpre : entries <+: log) :
    Traced known after entries := by
  obtain ⟨rest, rfl⟩ := hpre
  intro i entry hentry
  refine h i entry ?_
  rwa [List.getElem?_append_left (List.getElem?_eq_some_iff.mp hentry).1]

theorem Traced.drop (h : Traced known 0 log) (n : Nat) : Traced known n (log.drop n) := by
  intro i entry hentry
  rw [List.getElem?_drop] at hentry
  simpa using h (n + i) entry hentry

theorem Traced.append (h : Traced known 0 log) (hentries : Traced known log.length entries) :
    Traced known 0 (log ++ entries) := by
  intro i entry hentry
  rcases Nat.lt_or_ge i log.length with hlt | hge
  · rw [List.getElem?_append_left hlt] at hentry
    exact h i entry hentry
  · rw [List.getElem?_append_right hge] at hentry
    have hknown := hentries _ entry hentry
    rwa [show log.length + (i - log.length) + 1 = 0 + i + 1 by omega] at hknown

theorem Traced.push (h : Traced known 0 log) {entry : LogEntry}
    (hentry : known (log.length + 1) entry) : Traced known 0 (log ++ [entry]) := by
  refine h.append fun i other hother => ?_
  obtain ⟨rfl, rfl⟩ : i = 0 ∧ other = entry := by
    cases i with
    | zero => exact ⟨rfl, (Option.some.inj hother).symm⟩
    | succ => cases hother
  exact hentry

theorem Traced.merge {prev : Nat} (h : Traced known 0 log) (hprev : prev ≤ log.length)
    (hentries : Traced known prev entries) : Traced known 0 (mergeEntries log prev entries) := by
  rw [mergeEntries_eq hprev]
  split
  · exact h
  · refine (h.of_isPrefix (List.take_prefix _ _)).append ?_
    rwa [length_take, Nat.min_eq_left hprev]

end Logs

def StoresKnown (known : Nat → LogEntry → Prop) (node : RaftNode) (action : Action) : Prop :=
  ∀ command, action = .appendCommand command → storesCommand node command = true →
    known (node.log.length + 1) { term := node.currentTerm, command }

section Sections

variable {lib : Libraries} {cfg : RaftConfig} {known : Nat → LogEntry → Prop} {p : Process}
  {action : Action} {next : Process × List Output}

/-- A section keeps the log known, in memory and on disk. -/
theorem ProcTraced.hostSteps {after : Host} (h : ProcTraced known p)
    (hcmd : StoresKnown known p.host.node action)
    (hmsg : ∀ args, action = .appendEntries args → Traced known args.prevLogIndex args.entries)
    (hsteps : HostSteps lib cfg (p.scope action) p.host after) :
    Traced known 0 after.node.log ∧ Traced known 0 after.durable.log := by
  refine hsteps.invariant_stored (motive := fun node => Traced known 0 node.log) ?_ ?_ ?_
    (fun state => Traced known 0 state.log) ?_ h.log h.disk
  · intro node node' hchange hnode
    rcases hchange.framed_or_log with hframe | hlog
    · rwa [hframe.log]
    · cases hlog with
      | @push cmd hpre hsome hup hlead hbytes hentries =>
        rw [hpre, (p.scope_spec _).before] at hnode hup hlead hentries ⊢
        refine hnode.push (hcmd cmd ((p.scope_spec _).command hsome) ?_)
        simp [storesCommand, hup, hlead, hbytes, hentries]
      | truncate => exact hnode.of_isPrefix (List.take_prefix _ _)
      | @merge args hsome hacc _ =>
        exact hnode.merge hacc.prevLogIndex (hmsg args ((p.scope_spec _).message hsome))
      | applied => exact hnode
  · intro reason node hnode
    rwa [(Framed.markUnhealthy reason node).log]
  · exact fun _ _ _ hnode => hnode
  · exact fun _ _ hnode => hnode

/-- Messages carry entries of the log. -/
theorem appendEntries_output {peer : NodeId} {args : AppendEntriesArgs}
    (hadv : Advances lib cfg p action next)
    (hout : Output.appendEntries peer args ∈ next.2) : Slice p.host.node.log args := by
  have hemits := emits_of_mem hadv hout
  have hmade : ∀ tgt, Output.appendEntries peer args =
      .appendEntries tgt (makeAppendEntriesFor cfg p.host.node tgt) →
      Slice p.host.node.log args := by
    intro tgt heq
    obtain ⟨rfl, rfl⟩ := Output.appendEntries.inj heq
    exact makeAppendEntriesFor_slice cfg p.host.node _
  have hend : ∀ thr, Output.appendEntries peer args ∉ (p.endBeat thr).2 := by
    intro thr hmem
    obtain ⟨_, _, _, _, _, heq⟩ := mem_endBeat (Prod.eta _).symm hmem
    cases heq
  cases hadv with
  | sendHeartbeat =>
    unfold sendBeat at hout
    split at hout
    · exact absurd hout (hend _)
    split at hout
    · exact absurd hout (hend _)
    · exact hmade _ (mem_singleton.mp hout)
  | sendEntries =>
    unfold sendNextEntries at hout
    split at hout
    · cases hout
    · exact hmade _ (mem_singleton.mp hout)
  | _ => cases hemits

theorem applied_output {index : Nat} {entry : LogEntry} (hadv : Advances lib cfg p action next)
    (hout : Output.applied index entry ∈ next.2) : (index, entry) ∈ p.pipeline.pending := by
  have hemits := emits_of_mem hadv hout
  cases hadv with
  | callback hpipe =>
    obtain ⟨_, _, _, heq⟩ | heq := mem_callBack hout
    · cases heq
    · obtain ⟨rfl, rfl⟩ := Output.applied.inj heq
      rw [hpipe]
      exact mem_cons_self
  | _ => cases hemits

/-- A section keeps and puts out known entries. -/
theorem ProcTraced.advance (h : ProcTraced known p) (hcmd : StoresKnown known p.host.node action)
    (hmsg : ∀ args, action = .appendEntries args → Traced known args.prevLogIndex args.entries)
    (hadv : Advances lib cfg p action next) :
    ProcTraced known next.1 ∧ ∀ output ∈ next.2, OutputTraced known output := by
  refine ⟨?_, fun output hout => ?_⟩
  · by_cases hboot : ∃ callback, action = .boot callback
    · obtain ⟨callback, rfl⟩ := hboot
      cases hadv with
      | boot =>
        have hload : Traced known 0 (load p.host.disk).log := by
          have hlog : (load p.host.disk).log = p.host.durable.log :=
            congrArg RaftPersistentState.log (load_persistent p.host)
          rw [hlog]
          exact h.disk
        refine ⟨hload, h.disk, fun entry hentry => ?_⟩
        dsimp only [boot] at hentry
        split at hentry
        · obtain ⟨hlt, _, hat⟩ := mem_drainLoop hentry
          have hknown := hload _ _ hat
          rwa [show 0 + (entry.1 - 1) + 1 = entry.1 by omega] at hknown
        · cases hentry
    · have hboot : ∀ callback, action ≠ .boot callback := fun callback heq => hboot ⟨callback, heq⟩
      obtain ⟨hlog, hdisk⟩ := h.hostSteps hcmd hmsg (hostSteps_of_advances hadv hboot)
      refine ⟨hlog, hdisk, fun entry hentry => ?_⟩
      rcases pending_of_advances hadv hboot hentry with hold | hdrain
      · exact h.pending entry hold
      · have hpos := hdrain.pos
        have hknown := hlog _ _ hdrain.log
        rwa [show 0 + (entry.1 - 1) + 1 = entry.1 by omega] at hknown
  · cases output with
    | appendEntries =>
      have hslice := appendEntries_output hadv hout
      exact (h.log.drop _).of_isPrefix hslice.entries
    | applied => exact h.pending _ (applied_output hadv hout)
    | _ => trivial

end Sections

section Runs

variable {lib : Libraries} {setup : ClusterConfig} {c c' : Cluster} {event : Event}
  {known known' : Nat → LogEntry → Prop}

theorem ProcTraced.mono {p : Process} (h : ProcTraced known p)
    (hknown : ∀ index entry, known index entry → known' index entry) : ProcTraced known' p where
  log := h.log.mono hknown
  disk := h.disk.mono hknown
  pending entry hentry := hknown _ _ (h.pending entry hentry)

theorem OutputTraced.mono {output : Output} (h : OutputTraced known output)
    (hknown : ∀ index entry, known index entry → known' index entry) :
    OutputTraced known' output := by
  cases output with
  | appendEntries => exact Traced.mono h hknown
  | applied => exact hknown _ _ h
  | _ => trivial

theorem history_subset (hstep : Cluster.step lib setup event c = some c') :
    c.history ⊆ c'.history := by
  obtain ⟨_, _, p, outputs, _, rfl⟩ := step_eq_some hstep
  exact subset_putOut event.node outputs c.history

theorem procs_of_ne (hstep : Cluster.step lib setup event c = some c') {v : NodeId}
    (hv : v ≠ event.node) : c'.procs v = c.procs v := by
  obtain ⟨_, _, p, outputs, _, rfl⟩ := step_eq_some hstep
  exact Function.update_of_ne hv _ _

theorem ClusterTraced.initial : ClusterTraced known {} where
  procs _ := ⟨.nil, .nil, nofun⟩
  history _ _ h := by cases h

/-- Entries stay known if a stored command becomes so. -/
theorem ClusterTraced.step (h : ClusterTraced known c)
    (hknown : ∀ index entry, known index entry → known' index entry)
    (hcmd : StoresKnown known' (c.procs event.node).host.node event.action)
    (hstep : Cluster.step lib setup event c = some c') : ClusterTraced known' c' := by
  obtain ⟨_, hdeliv, p, outputs, hadv, rfl⟩ := step_eq_some hstep
  have hproc : ProcTraced known' ((c.procs event.node).withIo event.io) :=
    have hold := (h.procs event.node).mono hknown
    ⟨hold.log, hold.disk, hold.pending⟩
  obtain ⟨hnext, hout⟩ := hproc.advance hcmd (fun args hact => by
    have hdelivered := delivered_of_delivers hdeliv
    rw [hact] at hdelivered
    obtain ⟨src, hsrc⟩ := hdelivered
    exact (h.history src _ hsrc).mono hknown) (advances_of_advance hadv)
  refine ⟨fun v => ?_, fun v output hmem => ?_⟩
  · by_cases hv : v = event.node
    · subst hv
      simpa using hnext
    · simpa [Function.update_of_ne hv] using (h.procs v).mono hknown
  · rcases mem_putOut.mp hmem with hold | ⟨rfl, hnew⟩
    · exact (h.history v output hold).mono hknown
    · exact hout output hnew

end Runs

end BoostGateway.Raft
