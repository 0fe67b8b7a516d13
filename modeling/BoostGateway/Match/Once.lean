import BoostGateway.Match.Ids

/-!
# A player is matched once per queueing

Nothing checks that the players of a match are still queued when it is committed. As long as nobody
takes out a player of a match in between, every match is committed from the queue. In Raft mode a
leader looks for a match in the queues of the entries it has applied, and the match comes behind all
entries of its log; `matched_once_per_queueing` is about the runs in which that makes no difference.
-/

namespace BoostGateway.Match

open List Raft Protobuf Consensus Consensus.Replicas MatchCluster

def commits (ops : List QueueOp) : List MatchResult := ops.filterMap fun
    | .commit result => some result
    | _ => none

variable {ops : List QueueOp} {result : MatchResult} {op : QueueOp} {s : LocalService}
  {thread : Nat} (order : QueueSort) (config : MatchmakingConfig)

theorem mem_commits : result ∈ commits ops ↔ .commit result ∈ ops := by
  simp only [commits, mem_filterMap]
  refine ⟨?_, fun h => ⟨_, h, rfl⟩⟩
  rintro ⟨op, hmem, hop⟩
  cases op with
  | commit =>
    cases hop
    exact hmem
  | add | remove | purge => cases hop

structure MatchedOnce (ops : List QueueOp) : Prop where
  queued : CommitsQueued ops
  once : OncePerJoin ops

def QueueOp.spares (op : QueueOp) (found : List MatchResult) : Bool :=
  found.all fun result => (op.removes result.mode).all fun userId =>
    !result.playerIds.contains userId

theorem not_mem_removes_of_spares {found : List MatchResult} (h : op.spares found = true)
    (hfind : result ∈ found) {userId : Bytes} (huser : userId ∈ result.playerIds) :
    userId ∉ op.removes result.mode := by
  intro hrem
  have hspared := all_eq_true.mp (all_eq_true.mp h result hfind) userId hrem
  simp [huser] at hspared

/-! ## Local mode -/

def operations (program : List Section) : List QueueOp := program.filterMap fun
    | .operate op => some op
    | _ => none

@[simp]
theorem operations_append (program program' : List Section) :
    operations (program ++ program') = operations program ++ operations program' :=
  filterMap_append

def LocalService.foundElsewhere (s : LocalService) (thread : Nat) : List MatchResult :=
  commits ((s.threads.eraseIdx thread).flatMap operations)

def LocalService.clear (s : LocalService) : LocalStep → Bool
  | .run thread _ =>
    match s.threads[thread]? with
    | some (.operate op :: _) => op.spares (s.foundElsewhere thread)
    | _ => true
  | _ => true

def LocalService.ClearThroughout (order : QueueSort) (config : MatchmakingConfig) :
    LocalService → List LocalStep → Prop
  | _, [] => True
  | s, step :: rest =>
    s.clear step = true ∧ ClearThroughout order config (s.step order config step).1 rest

/-- The queues follow the operations, matches were committed from the queue, and found ones can be,
next. -/
structure LocalInv (s : LocalService) (ops : List QueueOp) : Prop where
  queues : s.queues = queuesAfter ops
  sound : CommitsQueued ops
  found : ∀ program ∈ s.threads, ∀ result, .commit result ∈ operations program →
    ∀ userId ∈ result.playerIds, Queued s.queues result.mode userId
  next : ∀ program ∈ s.threads, ∀ result, .commit result ∉ operations program.tail

theorem localInv_init : LocalInv {} [] where
  queues := rfl
  sound := commitsQueued_nil
  found := by
    intro prog hprog result hcom
    rw [mem_singleton.mp hprog] at hcom
    cases hcom
  next := by
    intro prog hprog result hcom
    rw [mem_singleton.mp hprog] at hcom
    cases hcom

theorem LocalInv.set_program (inv : LocalInv s ops) {threads : List (List Section)}
    (hthreads : ∀ prog ∈ threads, prog ∈ s.threads ∨ ∀ result, .commit result ∉ operations prog) :
    LocalInv { s with threads } ops where
  queues := inv.queues
  sound := inv.sound
  found := by
    intro prog hprog result hcom
    rcases hthreads prog hprog with hold | hnew
    · exact inv.found prog hold result hcom
    · exact absurd hcom (hnew result)
  next := by
    intro prog hprog result hcom
    rcases hthreads prog hprog with hold | hnew
    · exact inv.next prog hold result hcom
    · refine hnew result ?_
      exact ((tail_sublist prog).filterMap _).subset hcom

theorem LocalInv.request (inv : LocalInv s ops) (req : MatchRequest) :
    LocalInv (s.step order config (.request req)).1 ops := by
  refine inv.set_program fun prog hprog => ?_
  rcases mem_append.mp hprog with hold | hnew
  · exact .inl hold
  · rw [mem_singleton.mp hnew]
    refine .inr fun result hcom => ?_
    cases req <;> simp [MatchRequest.sections, operations] at hcom

theorem LocalInv.wake (inv : LocalInv s ops) : LocalInv (s.step order config .wake).1 ops := by
  dsimp only [LocalService.step]
  split
  · refine inv.set_program fun prog hprog => ?_
    rcases mem_or_eq_of_mem_set hprog with hold | rfl
    · exact .inl hold
    · exact .inr fun result hcom => by cases hcom
  · exact inv

/-- Without a change, only queued players are found. -/
theorem run_finds_queued (now : UInt64) (s : LocalService) {next : Section}
    (hnext : ∀ op, next ≠ .operate op) :
    (next.run order config now s).1.queues = s.queues ∧
      (∀ result, .commit result ∈ operations (next.run order config now s).2 →
        ∀ userId ∈ result.playerIds, Queued s.queues result.mode userId) ∧
      operations (next.run order config now s).2.tail = [] := by
  cases next with
  | operate op => exact absurd rfl (hnext op)
  | snapshot | record => exact ⟨rfl, fun _ h => (not_mem_nil h).elim, rfl⟩
  | expire =>
    dsimp only [Section.run]
    split
    · exact ⟨rfl, fun _ h => (not_mem_nil h).elim, rfl⟩
    · exact ⟨rfl, fun _ h => by simp [operations] at h, rfl⟩
  | examine mode anchors =>
    cases anchors with
    | nil => exact ⟨rfl, fun _ h => (not_mem_nil h).elim, rfl⟩
    | cons anch =>
      dsimp only [Section.run]
      cases hfind : findMatch order config.mmrRangeInitial mode anch s.nextMatchId s.queues with
      | none => exact ⟨rfl, fun _ h => (not_mem_nil h).elim, rfl⟩
      | some found =>
        refine ⟨rfl, fun result h userId huser => ?_, rfl⟩
        obtain rfl : result = found := by simpa [operations] using h
        exact queued_of_findMatch hfind huser

theorem mem_foundElsewhere {other : Nat} (hne : other ≠ thread) {prog : List Section}
    (hprog : s.threads[other]? = some prog) (hcom : .commit result ∈ operations prog) :
    result ∈ s.foundElsewhere thread := by
  refine mem_commits.mpr (mem_flatMap.mpr ⟨prog, ?_, hcom⟩)
  exact mem_eraseIdx_iff_getElem?.mpr ⟨other, hne, hprog⟩

theorem LocalInv.operate (inv : LocalInv s ops) {rest more : List Section}
    (hthread : s.threads[thread]? = some (.operate op :: rest))
    (hspares : op.spares (s.foundElsewhere thread) = true)
    (hmore : ∀ result, .commit result ∉ operations more) :
    LocalInv
      { s with queues := op.apply s.queues, threads := s.threads.set thread (more ++ rest) }
      (ops ++ [op]) := by
  have hmem := mem_of_getElem? hthread
  have hclean : ∀ result, .commit result ∉ operations (more ++ rest) := by
    intro result hcom
    rw [operations_append, mem_append] at hcom
    rcases hcom with hnew | hold
    · exact hmore result hnew
    · exact inv.next _ hmem result hold
  refine ⟨?_, ?_, ?_, ?_⟩
  · rw [queuesAfter_concat, inv.queues]
  · refine inv.sound.concat ?_
    rintro result rfl userId huser
    rw [← inv.queues]
    exact inv.found _ hmem result mem_cons_self userId huser
  · intro prog hprog result hcom userId huser
    obtain ⟨other, hother⟩ := mem_iff_getElem?.mp hprog
    rw [List.getElem?_set] at hother
    by_cases hsame : thread = other
    · -- the thread itself has no match left
      subst hsame
      split at hother
      · split at hother
        · cases hother
          exact absurd hcom (hclean result)
        · cases hother
      · exact absurd rfl ‹_›
    · rw [if_neg hsame] at hother
      have hfind := mem_foundElsewhere (Ne.symm hsame) hother hcom
      have hqueued := inv.found prog (mem_of_getElem? hother) result hcom userId huser
      exact hqueued.apply (not_mem_removes_of_spares hspares hfind huser)
  · intro prog hprog result hcom
    rcases mem_or_eq_of_mem_set hprog with hold | rfl
    · exact inv.next prog hold result hcom
    · exact hclean result (((tail_sublist _).filterMap _).subset hcom)

theorem LocalInv.look (inv : LocalInv s ops) (now : UInt64) {next : Section} {rest : List Section}
    (hthread : s.threads[thread]? = some (next :: rest)) (hnext : ∀ op, next ≠ .operate op) :
    LocalInv
      { (next.run order config now s).1 with
        threads := s.threads.set thread ((next.run order config now s).2 ++ rest) } ops := by
  obtain ⟨hqueues, hfinds, hlast⟩ := run_finds_queued order config now s hnext
  have hmem := mem_of_getElem? hthread
  have hrest : ∀ result, .commit result ∉ operations rest := fun result =>
    inv.next _ hmem result
  refine ⟨hqueues.trans inv.queues, inv.sound, ?_, ?_⟩
  · intro prog hprog result hcom userId huser
    rw [hqueues]
    rcases mem_or_eq_of_mem_set hprog with hold | rfl
    · exact inv.found prog hold result hcom userId huser
    · rw [operations_append, mem_append] at hcom
      rcases hcom with hnew | hold
      · exact hfinds result hnew userId huser
      · exact absurd hold (hrest result)
  · intro prog hprog result hcom
    rcases mem_or_eq_of_mem_set hprog with hold | rfl
    · exact inv.next prog hold result hcom
    · cases hmore : (next.run order config now s).2 with
      | nil =>
        rw [hmore, nil_append] at hcom
        exact hrest result (((tail_sublist _).filterMap _).subset hcom)
      | cons =>
        rw [hmore] at hcom hlast
        rw [cons_append, tail_cons, operations_append, mem_append] at hcom
        rcases hcom with hnew | hold
        · rw [tail_cons] at hlast
          rw [hlast] at hnew
          cases hnew
        · exact hrest result hold

theorem LocalInv.step (inv : LocalInv s ops) {step : LocalStep} (hclear : s.clear step = true) :
    LocalInv (s.step order config step).1 (ops ++ (s.step order config step).2.toList) := by
  cases step with
  | request request =>
    rw [show (s.step order config (.request request)).2.toList = [] from rfl, append_nil]
    exact inv.request order config request
  | wake =>
    have hnone : (s.step order config .wake).2.toList = [] := by
      dsimp only [LocalService.step]
      split <;> rfl
    rw [hnone, append_nil]
    exact inv.wake order config
  | run thread now =>
    dsimp only [LocalService.step]
    dsimp only [LocalService.clear] at hclear
    cases hthread : s.threads[thread]? with
    | none =>
      rw [Option.toList_none, append_nil]
      exact inv
    | some program =>
      cases program with
      | nil =>
        rw [Option.toList_none, append_nil]
        exact inv
      | cons next rest =>
        rw [hthread] at hclear
        cases next with
        | operate op =>
          refine inv.operate hthread hclear ?_
          intro result hcom
          cases op <;> cases hcom
        | snapshot | examine | record | expire =>
          rw [Option.toList_none, append_nil]
          exact inv.look order config now hthread fun op h => by cases h

theorem localInv_after (steps : List LocalStep) (inv : LocalInv s ops)
    (hclear : s.ClearThroughout order config steps) :
    LocalInv (s.after order config ops steps).1 (s.after order config ops steps).2 := by
  induction steps generalizing s ops with
  | nil => exact inv
  | cons step rest ih => exact ih (inv.step order config hclear.1) hclear.2

/-! ## Raft mode -/

section Raft

variable {setup : MatchSetup} {m : MatchCluster} {v : NodeId}

def MatchResult.QueuedAfter (setup : MatchSetup) (result : MatchResult) (log : List LogEntry) :
    Prop :=
  ∀ userId ∈ result.playerIds, Queued (queuesAfter (setup.operationsOf log)) result.mode userId

namespace MatchCluster

/-- The step is orderly, and a leader proposes players queued after its log. -/
def ProposesQueued (setup : MatchSetup) (m : MatchCluster) : MatchEvent → Prop
  | .node event => orderlyStep setup.cluster m.nodes.raft event
  | .propose v _ _ => m.isLeader v = true → ∀ found ∈ (m.service v).found,
    found.2.QueuedAfter setup (m.nodes.raft.procs v).host.node.log
  | _ => True

/-- The queues are those of the entries applied since the start, in which matched players are
queued, once per join. -/
structure AppliesOnce (setup : MatchSetup) (m : MatchCluster) : Prop where
  queues : ∀ v, (m.service v).queues = queuesAfter (m.appliedOps setup v)
  matched : ∀ v ∈ setup.cluster.peers, MatchedOnce (m.appliedOps setup v)

end MatchCluster

instance (result : MatchResult) (log : List LogEntry) :
    Decidable (result.QueuedAfter setup log) := by
  unfold MatchResult.QueuedAfter Queued
  infer_instance

instance (event : MatchEvent) : Decidable (m.ProposesQueued setup event) := by
  unfold MatchCluster.ProposesQueued
  split <;> infer_instance

def Sound (setup : MatchSetup) (a : Record) (index : Nat) (entry : LogEntry) : Prop :=
  ∀ result ∈ matchOf setup.lib setup.proto entry, ∃ log, index = log.length + 1 ∧
    a.leader entry.term ≠ none ∧ log <+: a.leaderLog entry.term ∧ result.QueuedAfter setup log

theorem Sound.extends {a a' : Record} {index : Nat} {entry : LogEntry}
    (h : Sound setup a index entry) (hext : Extends a a') : Sound setup a' index entry := by
  intro result hresult
  obtain ⟨log, hindex, hlead, hlog, hqueued⟩ := h result hresult
  exact ⟨log, hindex, hext.leader_ne_none hlead, hlog.trans (hext.leaderLog _ hlead), hqueued⟩

structure OnceInv (setup : MatchSetup) (m : MatchCluster) : Prop where
  run : Cluster.Run setup.lib setup.cluster (orderlyStep setup.cluster) m.nodes.raft
  follows : m.Follows setup
  sound : ∃ a, ClusterRel commitLevel setup.cluster m.nodes.raft a ∧
    ClusterTraced (Sound setup a) m.nodes.raft

/-- Matches are applied to queued players only. -/
theorem OnceInv.commitsQueued (h : OnceInv setup m) (hv : v ∈ setup.cluster.peers) :
    CommitsQueued (m.appliedOps setup v) := by
  obtain ⟨a, hrel, htraced⟩ := h.sound
  unfold MatchCluster.appliedOps MatchSetup.operationsOf
  generalize hentries : (entriesSince m.nodes.raft.history v).map Prod.snd = entries
  suffices hall : ∀ n, CommitsQueued (setup.operationsOf (entries.take n)) by
    simpa [MatchSetup.operationsOf] using hall entries.length
  intro n
  induction n with
  | zero => exact commitsQueued_nil
  | succ n ih =>
    rw [take_add_one, MatchSetup.operationsOf, filterMap_append]
    cases hentry : entries[n]? with
    | none => simpa [MatchSetup.operationsOf] using ih
    | some entry =>
      cases hop : entryOp setup.lib setup.proto entry with
      | error => simpa [hop, Except.toOption, MatchSetup.operationsOf] using ih
      | ok op =>
        rw [Option.toList_some, filterMap_cons, hop, filterMap_nil]
        refine ih.concat ?_
        rintro result rfl userId huser
        rw [← hentries, getElem?_map] at hentry
        obtain ⟨record, hrecord, rfl⟩ := Option.map_eq_some_iff.mp hentry
        obtain ⟨hindex, -⟩ := entriesSince_committed h.run hrel hv hrecord
        have happlied := mem_history_of_entriesSince (mem_of_getElem? hrecord)
        have hsound : Sound setup a record.1 record.2 := htraced.history _ _ happlied
        obtain ⟨log, hlength, -, hlog, hqueued⟩ := hsound result (matchOf_eq_some_iff.mpr hop)
        -- the log of the leader up to the match is what the node has applied before it
        have hsame : entries.take n = log := by
          rw [← hentries, entriesSince_take h.run hrel hv hrecord, prefix_iff_eq_take.mp hlog]
          congr 1
          omega
        rw [hsame]
        exact hqueued userId huser

theorem orderlyStep_appendCommand (cluster : ClusterConfig) (c : Cluster) (v : NodeId)
    (bytes : Bytes) (io : List IoOutcome) :
    orderlyStep cluster c { node := v, action := .appendCommand bytes, io } := ⟨trivial, trivial⟩

theorem OnceInv.step {m' : MatchCluster} {event : MatchEvent} (h : OnceInv setup m)
    (hcondition : m.ProposesQueued setup event) (hmoves : Moves setup m event m') :
    OnceInv setup m' := by
  obtain ⟨a, hrel, htraced⟩ := h.sound
  have hfollows := h.follows.moves hmoves
  cases hmoves with
  | still hraft => exact ⟨hraft ▸ h.run, hfollows, a, hraft ▸ hrel, hraft ▸ htraced⟩
  | node raftEvent hevent hsteps =>
    subst hevent
    obtain ⟨a', hext, hrel'⟩ := hrel.step ⟨fun _ => hcondition.1, fun _ => hcondition.2⟩ hsteps.raft
    refine ⟨h.run.step hcondition hsteps.raft, hfollows, a', hrel', ?_⟩
    refine htraced.step (fun _ _ hsound => hsound.extends hext) ?_ hsteps.raft
    exact fun command hact => absurd hact (hsteps.command command)
  | @append v op bytes io hhanded hop hraft =>
    have horderly := orderlyStep_appendCommand setup.cluster m.nodes.raft v bytes io
    obtain ⟨a', hext, hrel'⟩ := hrel.step ⟨fun _ => horderly.1, fun _ => horderly.2⟩ hraft
    refine ⟨h.run.step horderly hraft, hfollows, a', hrel', ?_⟩
    refine htraced.step (fun _ _ hsound => hsound.extends hext) ?_ hraft
    intro command hact hstores result hresult
    cases hact
    have hcommit := hop _ _ (matchOf_eq_some_iff.mp hresult)
    -- a match is handed over by its proposal, and the leader has its log in the record
    simp only [storesCommand, Bool.and_eq_true, decide_eq_true_eq] at hstores
    obtain ⟨hlead, hlog⟩ := hrel.leaderLog_eq (step_eq_some hraft).1 hstores.1.1.2
    refine ⟨_, rfl, hext.leader_ne_none (by simp [hlead]), ?_, ?_⟩
    · rw [hlog]
      exact hext.leaderLog _ (by simp [hlead])
    · subst hcommit
      cases event with
      | propose =>
        obtain ⟨found, hfound, heq⟩ := Option.map_eq_some_iff.mp hhanded
        cases heq
        exact hcondition (by simp [isLeader, hstores.1.1.2]) found hfound
      | request _ request => cases request <;> cases hhanded
      | _ => cases hhanded

end Raft

/-! ## Both modes -/

def joinInTurn : List LocalStep :=
  [.request (.join { userId := ascii "ann" }), .run 1 0, .run 1 0, .run 1 0,
    .request (.join { userId := ascii "bob" }), .run 2 0, .run 2 0, .run 2 0, .run 2 0, .run 2 0]

def pairMatch : MatchResult :=
  ⟨ascii "match_1", .oneVsOne, [ascii "ann", ascii "bob"], 1000⟩

/-- Two players join, `a` matches them, and `b` applies it. -/
def matchOnTrio : List MatchEvent :=
  electA.map .node ++
    .request nodeA (.join { userId := ascii "ann" }) .legacyJson [] ::
      (replicateFor 0 (makeJoinCommand { userId := ascii "ann" })).map .node ++
    .request nodeA (.join { userId := ascii "bob" }) .legacyJson [] ::
      (replicateFor 1 (makeJoinCommand { userId := ascii "bob" })).map .node ++
    .look nodeA .oneVsOne { userId := ascii "ann" } :: .propose nodeA .legacyJson [] ::
      (replicateFor 2 (makeMatchFoundCommand pairMatch)).map .node

/-- Both threads find the two players before either commits. -/
def joinTogether : List LocalStep :=
  [.request (.join { userId := ascii "ann" }), .request (.join { userId := ascii "bob" }),
    .run 1 0, .run 2 0, .run 1 0, .run 2 0, .run 1 0, .run 2 0, .run 1 0, .run 2 0]

end BoostGateway.Match
