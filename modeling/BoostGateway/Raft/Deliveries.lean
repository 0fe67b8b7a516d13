import BoostGateway.Raft.Changes

/-!
# The entries to deliver

What is handed to the apply callback was drained from the log up to the commit index
(`pending_of_advances`). A section that delivers nothing leaves a delivery that is under way alone
(`moves_of_advances`).
-/

namespace BoostGateway.Raft

open Process

def Pipeline.pending : Pipeline → List (Nat × LogEntry)
  | .delivering _ pending _ => pending
  | _ => []

def Pipeline.delivery : Pipeline → Option (Purpose × List (Nat × LogEntry) × Bool)
  | .delivering purpose pending inFlight => some (purpose, pending, inFlight)
  | _ => none

/-- The command and index of the pipeline's `append_command`. -/
def Pipeline.appending : Pipeline → Option (Nat × Bytes)
  | .replicating index command _ _ => some (index, command)
  | .awaiting index command _ _ _ _ => some (index, command)
  | .delivering (.append index command) _ _ => some (index, command)
  | .beating index command _ => some (index, command)
  | _ => none

def Action.delivers : Action → Bool
  | .boot _ => true
  | .callback => true
  | .callbackReturned _ => true
  | .finishDelivery => true
  | _ => false

/-- What a section that delivers nothing does to the pipeline. -/
inductive Pipeline.Moves (before after : Pipeline) : Action → Prop where
  /-- A delivery goes on, and so does a call of `append_command` unless it returns. -/
  | still {action : Action} : after.delivery = before.delivery →
      after.appending = none ∨ after.appending = before.appending → Moves before after action
  /-- A call of `append_command` has stored its command. -/
  | stored {command : Bytes} {index : Nat} :
      before = .free → after.delivery = none → after.appending = some (index, command) →
      Moves before after (.appendCommand command)
  /-- A message leads to a delivery. -/
  | received {args : AppendEntriesArgs} {reply : AppendEntriesReply}
      {pending : List (Nat × LogEntry)} :
      before = .free → after = .delivering (.reply args reply) pending false →
      Moves before after (.appendEntries args)
  /-- The replication loop leads to a delivery. -/
  | replicated {index : Nat} {command : Bytes} {pending : List (Nat × LogEntry)} :
      before.delivery = none → before.appending = some (index, command) →
      after = .delivering (.append index command) pending false →
      Moves before after .closeReplication

structure Drained (node : RaftNode) (entry : Nat × LogEntry) : Prop where
  pos : 0 < entry.1
  commitIndex : entry.1 ≤ node.commitIndex
  log : node.log[entry.1 - 1]? = some entry.2

section Calls

variable {lib : Libraries} {cfg : RaftConfig} {p : Process} {action : Action}
  {next : Process × List Output} {entry : Nat × LogEntry}

theorem drained_of_persistent {node after : RaftNode} (hpers : after.persistent = node.persistent)
    (h : entry ∈ drainCommittedEntriesLocked node) : Drained after entry := by
  obtain ⟨_, _, hlog, hcom, _⟩ := RaftPersistentState.mk.inj hpers
  obtain ⟨hlt, hle, hentry⟩ := mem_drainCommittedEntriesLocked h
  exact ⟨by omega, hcom ▸ hle, hlog ▸ hentry⟩

variable {args : AppendEntriesArgs} {reply : AppendEntriesReply} {host after : Host}
  {applied : List (Nat × LogEntry)}

theorem acceptEntries_drained {reply' : AppendEntriesReply}
    (h : acceptEntries lib cfg args reply host = (after, reply', some applied))
    (hentry : entry ∈ applied) : Drained after.node entry := by
  revert h
  fun_cases acceptEntries lib cfg args reply host with
  | case4 _ _ _ _ node drained saved hsave =>
    simp only [Prod.mk.injEq, Option.some.injEq]
    rintro ⟨rfl, -, rfl⟩
    exact drained_of_persistent (persistStateLocked_persistent hsave) hentry
  | _ => simp

theorem handleAppendEntries_drained
    (h : handleAppendEntries lib cfg args host = (after, reply, some applied))
    (hentry : entry ∈ applied) : Drained after.node entry := by
  revert h
  fun_cases handleAppendEntries lib cfg args host with
  | case3 | case5 => exact fun h => acceptEntries_drained h hentry
  | _ => simp

theorem commitAppended_drained {succ : Nat}
    (h : commitAppended lib cfg succ host = (after, some applied)) (hentry : entry ∈ applied) :
    Drained after.node entry := by
  revert h
  fun_cases commitAppended lib cfg succ host with
  | case2 _ node drained saved hsave =>
    simp only [Prod.mk.injEq, Option.some.injEq]
    rintro ⟨rfl, rfl⟩
    exact drained_of_persistent (persistStateLocked_persistent hsave) hentry
  | _ => simp

theorem abandonDelivery_pending (purpose : Purpose) (p : Process) :
    (p.abandonDelivery purpose).1.pipeline.pending = [] := by cases purpose <;> rfl

theorem Pipeline.Moves.refl (pipe : Pipeline) : pipe.Moves pipe action := .still rfl (.inr rfl)

theorem setBeat_moves (action : Action) (thr : Thread) (beat : Beat) (p : Process)
    (host : Host) : p.pipeline.Moves ({ p with host }.setBeat thr beat).pipeline action := by
  cases thr with
  | worker => exact .refl _
  | pipeline =>
    dsimp only [setBeat]
    split
    next hpipe =>
      rw [hpipe]
      exact .still rfl (.inr rfl)
    · exact .refl _

theorem endBeat_moves (action : Action) (thr : Thread) (p : Process) (host : Host) :
    p.pipeline.Moves ({ p with host }.endBeat thr).1.pipeline action := by
  cases thr with
  | worker => exact .refl _
  | pipeline =>
    dsimp only [endBeat]
    split
    next hpipe =>
      rw [hpipe]
      exact .still rfl (.inl rfl)
    · exact .refl _

/-- How the pipeline moves in a section that delivers nothing. -/
theorem moves_of_advances (h : Advances lib cfg p action next)
    (hdeliv : action.delivers = false) : p.pipeline.Moves next.1.pipeline action := by
  cases h with
  | boot | callback | callbackReturned | finishDelivery => cases hdeliv
  | start hpipe =>
    rw [hpipe]
    exact .still rfl (.inl rfl)
  | startElection => fun_cases beginElection lib cfg p <;> exact .refl _
  | sendRequestVote => exact .refl _
  | voteReplied res => cases res <;> exact .refl _
  | closeElection | startHeartbeat => exact .refl _
  | @sendHeartbeat thr targets hbeat =>
    fun_cases sendBeat cfg thr targets p with
    | case1 | case2 => exact endBeat_moves _ _ p _
    | case3 => exact setBeat_moves _ _ _ p _
  | @heartbeatReplied thr peer args rest res hbeat =>
    cases res with
    | empty => exact setBeat_moves _ _ _ p _
    | threw =>
      cases thr with
      | worker => exact .refl _
      | pipeline =>
        obtain ⟨index, cmd, hpipe⟩ := beating_of_beat hbeat
        rw [hpipe]
        exact .still rfl (.inl rfl)
    | reply =>
      dsimp only [receiveBeat]
      split
      · exact setBeat_moves _ _ _ _ _
      · exact endBeat_moves _ _ _ _
  | requestVote => exact .refl _
  | appendEntries args hpipe =>
    fun_cases receiveEntries lib cfg args p with
    | case1 => exact .refl _
    | case2 => exact .received hpipe rfl
  | appendCommand cmd hpipe =>
    fun_cases beginAppend lib cfg cmd p with
    | case1 => exact .stored hpipe rfl rfl
    | case2 => exact .refl _
  | @sendEntries index succ cmd peer rest hpipe =>
    rw [hpipe]
    fun_cases sendNextEntries cfg index cmd succ peer rest p with
    | case1 => exact .still rfl (.inl rfl)
    | case2 => exact .still rfl (.inr rfl)
  | @entriesReplied index succ cmd peer args rest res hpipe =>
    rw [hpipe]
    cases res with
    | threw => exact .still rfl (.inl rfl)
    | empty | reply =>
      dsimp only [receiveEntriesReply]
      split
      · exact .still rfl (.inl rfl)
      · exact .still rfl (.inr rfl)
      · exact .still rfl (.inr rfl)
  | @closeReplication index succ cmd hpipe =>
    rw [hpipe]
    fun_cases endReplication lib cfg index cmd succ p with
    | case1 host applied =>
      cases applied with
      | none => exact .still rfl (.inl rfl)
      | some => exact .replicated rfl rfl rfl

theorem Pipeline.Moves.congr {α : Type} {f : Pipeline → α} {before after : Pipeline}
    (h : before.Moves after action)
    (hf : ∀ {pipeline pipeline' : Pipeline}, pipeline'.delivery = pipeline.delivery →
      f pipeline' = f pipeline)
    (hnew : ∀ purpose pending, purpose ≠ .replay →
      f (.delivering purpose pending false) = f .free) :
    f after = f before := by
  cases h with
  | still hdelivery => exact hf hdelivery
  | stored hfree hdelivery => exact hf (hdelivery.trans (hfree ▸ rfl))
  | received hfree hafter => rw [hafter, hfree, hnew _ _ (by simp)]
  | replicated hpre happ hafter =>
    rw [hafter, hnew _ _ (by simp)]
    exact hf hpre.symm

theorem settled_of_advances (h : Advances lib cfg p action next)
    (hdeliv : action.delivers = false) :
    (next.1.host.node.healthy = true → p.host.node.healthy = true) ∧
      ((∀ args, action ≠ .appendEntries args) →
        next.1.host.node.lastApplied = p.host.node.lastApplied) := by
  have hsteps := hostSteps_of_advances h (by rintro cb rfl; cases hdeliv)
  refine ⟨hsteps.healthy_of, fun hmsg => ?_⟩
  refine hsteps.lastApplied (p.scope_message hmsg) (p.scope_delivers ?_)
  rintro verd rfl
  cases hdeliv

theorem pending_of_delivery {pipeline pipeline' : Pipeline}
    (h : pipeline'.delivery = pipeline.delivery) : pipeline'.pending = pipeline.pending := by
  cases pipeline <;> cases pipeline' <;> simp_all [Pipeline.delivery, Pipeline.pending]

/-- Only committed entries are added to a delivery. -/
theorem pending_of_advances (h : Advances lib cfg p action next)
    (hboot : ∀ callback, action ≠ .boot callback) (hentry : entry ∈ next.1.pipeline.pending) :
    entry ∈ p.pipeline.pending ∨ Drained next.1.host.node entry := by
  cases hdeliv : action.delivers with
  | false =>
    have hmoves := moves_of_advances h hdeliv
    cases hmoves with
    | still hdelivery =>
      rw [pending_of_delivery hdelivery] at hentry
      exact .inl hentry
    | stored hfree hdelivery =>
      have hnone : next.1.pipeline.delivery = Pipeline.free.delivery := hdelivery
      rw [pending_of_delivery hnone] at hentry
      cases hentry
    | @received args reply pending hfree hafter =>
      cases h with
      | appendEntries =>
        revert hentry
        fun_cases receiveEntries lib cfg args p with
        | case1 => exact .inl
        | case2 host reply applied hhandle =>
          exact fun hentry => .inr (handleAppendEntries_drained hhandle hentry)
    | replicated =>
      cases h with
      | @closeReplication index successes command hpipe =>
        revert hentry
        fun_cases endReplication lib cfg index command successes p with
        | case1 host applied hcom =>
          cases applied with
          | none =>
            intro hentry
            cases hentry
          | some => exact fun hentry => .inr (commitAppended_drained hcom hentry)
  | true =>
    cases h with
    | boot callback => exact absurd rfl (hboot callback)
    | @callback purpose index entry rest hpipe =>
      left
      rcases callBack_cases purpose index entry rest p with ⟨_, hcase⟩ | ⟨_, hcase⟩
      · simp [hcase, abandonDelivery_pending] at hentry
      · rw [hcase] at hentry
        rw [hpipe]
        exact hentry
    | @callbackReturned purpose index entry rest verdict hpipe =>
      left
      rw [hpipe]
      dsimp only [callbackDone] at hentry
      split at hentry
      · exact List.mem_cons_of_mem _ hentry
      · generalize markApplied lib cfg index p.host = result at hentry
        obtain ⟨host, ok⟩ := result
        cases ok with
        | true => exact List.mem_cons_of_mem _ hentry
        | false => simp [abandonDelivery_pending] at hentry
      · simp [abandonDelivery_pending] at hentry
    | @finishDelivery purpose inFlight hpipe =>
      cases purpose with
      | replay =>
        dsimp only [completeDelivery] at hentry ⊢
        split at hentry
        next hup =>
          rw [if_pos hup]
          exact .inr (drained_of_persistent rfl hentry)
        · cases hentry
      | _ => cases hentry
    | _ => cases hdeliv

end Calls

end BoostGateway.Raft
