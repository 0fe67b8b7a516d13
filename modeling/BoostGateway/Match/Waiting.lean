import BoostGateway.Match.Cluster
import BoostGateway.Runs

/-!
# Waiting for a match

`match_sound_complete` says when `try_match_mode`, on a queue that nobody changes meanwhile,
proposes a match, and whom the match lists. `purged_after_waiting` says in which runs of the cluster
nobody is purged before the time is over.
-/

namespace BoostGateway.Match

open List Raft Protobuf MatchCluster

/-- `Matchmaker::try_match_mode`: the first anchor with enough players. -/
def tryMatchMode (order : QueueSort) (config : MatchmakingConfig) (mode : MatchMode)
    (number : UInt64) (queues : Queues) : Option MatchResult :=
  (order.sort (queues mode)).findSome? fun anchor =>
    findMatch order config.mmrRangeInitial mode anchor number queues

/-- The mmr of the player lies in the range of the anchor. -/
def near (range : Int64) (anchor p : MatchPlayer) : Bool :=
  (p.mmr.toInt - anchor.mmr.toInt).natAbs ≤ range.toInt

/-- The mmr values of the players fit 32 bits. -/
def Fits32 (players : List MatchPlayer) : Prop :=
  ∀ p ∈ players, -2 ^ 31 ≤ p.mmr.toInt ∧ p.mmr.toInt < 2 ^ 31

/-- As many distinct players in range as needed, the longest waiting. -/
structure LongestWaiting (range : Int64) (players : List MatchPlayer) (anchor : MatchPlayer)
    (result : MatchResult) (chosen : List MatchPlayer) : Prop where
  playerIds : result.playerIds = chosen.map (·.userId)
  length : result.playerIds.length = playersForMode result.mode
  distinct : result.playerIds.Nodup
  inRange : ∀ p ∈ chosen, p ∈ players ∧ near range anchor p = true
  longest : ∀ p ∈ chosen, ∀ q ∈ players, near range anchor q = true → q ∉ chosen →
    p.queuedAtMs ≤ q.queuedAtMs

variable {range : Int64} {anchor : MatchPlayer} {players : List MatchPlayer}

theorem removePlayers_sublist (userIds : List Bytes) (players : List MatchPlayer) :
    (removePlayers userIds players).Sublist players := by
  induction userIds generalizing players with
  | nil => exact .refl _
  | cons userId rest ih => exact (ih _).trans filter_sublist

theorem distinct_queuesAfter (ops : List QueueOp) (mode : MatchMode) :
    (queuesAfter ops mode).Pairwise (·.userId ≠ ·.userId) := by
  induction ops using List.reverseRecOn with
  | nil => exact .nil
  | append_singleton ops op ih =>
    rw [queuesAfter_concat]
    cases op <;> simp only [QueueOp.apply, Queues.modify] <;> split <;> try exact ih
    case add.isTrue =>
      refine pairwise_append.mpr ⟨ih.filter _, pairwise_singleton _ _, ?_⟩
      simp [mem_filter]
    case remove.isTrue => exact ih.sublist eraseP_sublist
    all_goals exact ih.sublist (removePlayers_sublist _ _)

/-- The difference of two values of 32 bits does not overflow. -/
theorem getEligible_eq (order : QueueSort) (range : Int64) (hfits : Fits32 players)
    (hanchor : anchor ∈ players) :
    getEligible order anchor.mmr range players =
      order.sort (players.filter (near range anchor)) := by
  refine congrArg order.sort (filter_congr fun p hp => decide_eq_decide.mpr ?_)
  have hsub (a b : MatchPlayer) (ha : a ∈ players) (hb : b ∈ players) :
      (a.mmr - b.mmr).toInt = a.mmr.toInt - b.mmr.toInt := by
    have ha := hfits a ha
    have hb := hfits b hb
    rw [Int64.toInt_sub]
    exact Int.bmod_eq_of_le (by omega) (by omega)
  rw [Int64.le_iff_toInt_le]
  split
  next hlt =>
    rw [hsub p anchor hp hanchor]
    have := Int64.lt_iff_toInt_lt.mp hlt
    omega
  next hle =>
    rw [hsub anchor p hanchor hp]
    have := mt Int64.lt_iff_toInt_lt.mpr hle
    omega

/-- The first eligible players have waited longest. -/
theorem longestWaiting_take (order : QueueSort) {res : MatchResult}
    (hdist : players.Pairwise (·.userId ≠ ·.userId))
    (henough : playersForMode res.mode ≤ players.countP (near range anchor))
    (hids : res.playerIds = ((order.sort (players.filter (near range anchor))).take
      (playersForMode res.mode)).map (·.userId)) :
    ∃ chosen, LongestWaiting range players anchor res chosen := by
  have hperm := order.perm (players.filter (near range anchor))
  have hsort := order.sorted (players.filter (near range anchor))
  rw [countP_eq_length_filter, ← hperm.length_eq] at henough
  generalize order.sort (players.filter (near range anchor)) = eligible at *
  have hmem (q : MatchPlayer) : q ∈ eligible ↔ q ∈ players ∧ near range anchor q = true :=
    hperm.mem_iff.trans mem_filter
  refine ⟨eligible.take (playersForMode res.mode), hids, ?_, ?_, fun p hp => ?_,
    fun p hp q hq hnear hnot => ?_⟩
  · rw [hids, length_map, length_take, Nat.min_eq_left henough]
  · have hnodup : (eligible.map (·.userId)).Nodup :=
      (hperm.map _).nodup_iff.mpr (pairwise_map.mpr (hdist.filter _))
    exact hids ▸ hnodup.sublist ((take_sublist _ _).map _)
  · exact (hmem p).mp (mem_of_mem_take hp)
  · rw [← take_append_drop (playersForMode res.mode) eligible] at hsort hmem
    have hrest := (mem_append.mp ((hmem q).mpr ⟨hq, hnear⟩)).resolve_left hnot
    exact (pairwise_append.mp hsort).2.2 p hp q hrest

/-- If the mmr values of the queue fit 32 bits, a match is proposed exactly when enough queued
players are in the range of a queued player, and it lists those of them who have waited longest. -/
theorem match_sound_complete (order : QueueSort) (config : MatchmakingConfig) (mode : MatchMode)
    (number : UInt64) (ops : List QueueOp) (hfits : Fits32 (queuesAfter ops mode)) :
    ((tryMatchMode order config mode number (queuesAfter ops)).isSome = true ↔
      ∃ anchor ∈ queuesAfter ops mode, playersForMode mode ≤
        (queuesAfter ops mode).countP (near config.mmrRangeInitial anchor)) ∧
    ∀ result, tryMatchMode order config mode number (queuesAfter ops) = some result →
      result.mode = mode ∧ ∃ anchor ∈ queuesAfter ops mode, ∃ chosen,
        LongestWaiting config.mmrRangeInitial (queuesAfter ops mode) anchor result chosen := by
  have hmem (anchor : MatchPlayer) : anchor ∈ order.sort (queuesAfter ops mode) ↔
      anchor ∈ queuesAfter ops mode := (order.perm _).mem_iff
  have hlen (anchor : MatchPlayer) (hanchor : anchor ∈ queuesAfter ops mode) :
      (getEligible order anchor.mmr config.mmrRangeInitial (queuesAfter ops mode)).length =
        (queuesAfter ops mode).countP (near config.mmrRangeInitial anchor) := by
    rw [getEligible_eq order _ hfits hanchor, (order.perm _).length_eq, countP_eq_length_filter]
  constructor
  · rw [tryMatchMode, List.findSome?_isSome_iff]
    refine exists_congr fun anchor => (and_congr_left' (hmem anchor)).trans ?_
    refine and_congr_right fun hanchor => ?_
    rw [findMatch, hlen anchor hanchor]
    split <;> simp <;> omega
  · intro result h
    obtain ⟨anchor, hanchor, hfind⟩ := exists_of_findSome?_eq_some h
    rw [hmem] at hanchor
    rw [findMatch, hlen anchor hanchor, getEligible_eq order _ hfits hanchor] at hfind
    split at hfind
    next => cases hfind
    next henough =>
      cases hfind
      exact ⟨rfl, anchor, hanchor, longestWaiting_take order (distinct_queuesAfter ops mode)
        (Nat.not_lt.mp henough) rfl⟩

/-- Two players with the same mmr are matched. -/
theorem match_sound_complete_pair : ∃ result, tryMatchMode stableSort {} .oneVsOne 1
      (queuesAfter [.add { userId := ascii "ann" }, .add { userId := ascii "bob" }]) = some result ∧
      result.playerIds.Nodup := by
  obtain ⟨hiff, hall⟩ := match_sound_complete stableSort {} .oneVsOne 1
    [.add { userId := ascii "ann" }, .add { userId := ascii "bob" }] (by unfold Fits32; decide)
  obtain ⟨result, hres⟩ := Option.isSome_iff_exists.mp (hiff.mpr (by decide +kernel))
  obtain ⟨_, _, _, _, hlongest⟩ := hall result hres
  exact ⟨result, hres, hlongest.distinct⟩

/-! ## Purges -/

def nowMs (epoch : NodeId → UInt64) (v : NodeId) (now : Nat) : UInt64 := epoch v + UInt64.ofNat now

/-- The nodes, the time in milliseconds, and who has joined when. -/
structure TimedCluster where
  cluster : MatchCluster := {}
  now : Nat := 0
  joins : List (MatchPlayer × Nat) := []

def MatchEvent.clockless : MatchEvent → Bool
  | .request _ (.join _) _ _ | .purge .. => false
  | _ => true

inductive TimedEvent where
  | wait (ms : Nat)
  /-- `handle_match_join` on a node, with the `queued_at_ms` of the payload, if there is one -/
  | join (v : NodeId) (player : MatchPlayer) (queuedAtMs : Option UInt64) (format : RaftWireFormat)
      (io : List IoOutcome)
  /-- The matcher thread of a node runs `expired_players`. -/
  | purge (v : NodeId) (mode : MatchMode) (format : RaftWireFormat) (io : List IoOutcome)
  | other (event : MatchEvent) (h : event.clockless = true)

namespace TimedCluster

section

variable (setup : MatchSetup) (epoch : NodeId → UInt64)

def stamped (s : TimedCluster) (v : NodeId) (player : MatchPlayer) (queuedAtMs : Option UInt64) :
    MatchPlayer :=
  { player with queuedAtMs := queuedAtMs.getD (nowMs epoch v s.now) }

def step (s : TimedCluster) : TimedEvent → TimedCluster
  | .wait ms => { s with now := s.now + ms }
  | .join v player queuedAtMs format io =>
    let player := s.stamped epoch v player queuedAtMs
    { s with
      cluster := s.cluster.step setup (.request v (.join player) format io)
      joins := if s.cluster.isLeader v then s.joins ++ [(player, s.now)] else s.joins }
  | .purge v mode format io =>
    { s with cluster := s.cluster.step setup (.purge v mode (nowMs epoch v s.now) format io) }
  | .other event _ => { s with cluster := s.cluster.step setup event }

/-- Purged players have joined and waited too long. -/
def PurgesLate (s : TimedCluster) : TimedEvent → Prop
  | .purge v mode _ _ => s.cluster.isLeader v = true → ∀ p ∈ (s.cluster.service v).queues mode,
    p.userId ∈ expiredPlayers setup.config (nowMs epoch v s.now)
      ((s.cluster.service v).queues mode) →
      (∃ join ∈ s.joins, join.1 = p) ∧
        ∀ join ∈ s.joins, join.1 = p → setup.config.maxWaitMs.toNat < s.now - join.2
  | _ => True

/-- The unsigned wait that a purging leader computes is at most the real one. -/
def WaitsAsLong (s : TimedCluster) : TimedEvent → Prop
  | .purge v mode _ _ => s.cluster.isLeader v = true → ∀ p ∈ (s.cluster.service v).queues mode,
    ∀ join ∈ s.joins, join.1 = p → (nowMs epoch v s.now - p.queuedAtMs).toNat ≤ s.now - join.2
  | _ => True

instance (s : TimedCluster) (event : TimedEvent) : Decidable (s.PurgesLate setup epoch event) := by
  unfold PurgesLate
  split <;> infer_instance

instance (s : TimedCluster) (event : TimedEvent) : Decidable (s.WaitsAsLong epoch event) := by
  unfold WaitsAsLong
  split <;> infer_instance

end

variable {setup : MatchSetup} {epoch : NodeId → UInt64} {s : TimedCluster} {event : TimedEvent}

def Joined (setup : MatchSetup) (joins : List (MatchPlayer × Nat)) (_ : Nat) (entry : LogEntry) :
    Prop :=
  ∀ p, entryOp setup.lib setup.proto entry = .ok (.add p) → ∃ join ∈ joins, join.1 = p

structure JoinInv (setup : MatchSetup) (s : TimedCluster) : Prop where
  follows : s.cluster.Follows setup
  traced : ClusterTraced (Joined setup s.joins) s.cluster.nodes.raft

/-- A player who is queued on a node has joined. -/
theorem JoinInv.queued (h : JoinInv setup s) {v : NodeId} {mode : MatchMode} {p : MatchPlayer}
    (hp : p ∈ (s.cluster.service v).queues mode) : ∃ join ∈ s.joins, join.1 = p := by
  have hadded : ∀ ops, p ∈ queuesAfter ops mode → .add p ∈ ops := by
    intro ops hops
    induction ops using List.reverseRecOn with
    | nil => cases hops
    | append_singleton ops op ih =>
      rw [queuesAfter_concat] at hops
      rcases mem_apply hops with hold | ⟨rfl, -⟩
      · exact mem_append_left _ (ih hold)
      · exact mem_append_right _ (mem_singleton_self _)
  rw [h.follows v] at hp
  obtain ⟨entry, hentry, hop⟩ := mem_filterMap.mp (hadded _ hp)
  obtain ⟨record, hrecord, rfl⟩ := mem_map.mp hentry
  have hjoined : Joined setup s.joins record.1 record.2 :=
    h.traced.history _ _ (mem_history_of_entriesSince hrecord)
  refine hjoined p ?_
  cases hread : entryOp setup.lib setup.proto record.2 with
  | error => simp [hread, Except.toOption] at hop
  | ok op =>
    rw [hread] at hop
    cases hop
    rfl

/-- Only a join makes a join entry. -/
theorem JoinInv.moves (h : JoinInv setup s) {m : MatchCluster} {event : MatchEvent}
    {joins : List (MatchPlayer × Nat)} {now : Nat} (hmoves : Moves setup s.cluster event m)
    (hjoins : s.joins ⊆ joins) (hnew : ∀ v p format io, event = .request v (.join p) format io →
      s.cluster.isLeader v = true → ∃ join ∈ joins, join.1 = p) :
    JoinInv setup { cluster := m, now, joins } := by
  have hknown (index : Nat) (entry : LogEntry) (hjoined : Joined setup s.joins index entry) :
      Joined setup joins index entry := by
    intro p hp
    obtain ⟨join, hmem, hjoin⟩ := hjoined p hp
    exact ⟨join, hjoins hmem, hjoin⟩
  refine ⟨h.follows.moves hmoves, ?_⟩
  cases hmoves with
  | still hraft =>
    show ClusterTraced _ m.nodes.raft
    rw [hraft]
    exact ⟨fun v => (h.traced.procs v).mono hknown, fun v output hmem =>
      (h.traced.history v output hmem).mono hknown⟩
  | node raftEvent _ hsteps =>
    refine h.traced.step hknown ?_ hsteps.raft
    exact fun command hact => absurd hact (hsteps.command command)
  | @append v op bytes io hhanded hop hraft =>
    refine h.traced.step hknown ?_ hraft
    intro command hact hstores p hp
    cases hact
    obtain rfl := hop _ _ hp
    simp only [storesCommand, Bool.and_eq_true, decide_eq_true_eq] at hstores
    cases event with
    | request _ request =>
      cases request with
      | join =>
        cases hhanded
        exact hnew v p _ _ rfl (by simp [isLeader, hstores.1.1.2])
      | leave => cases hhanded
    | propose =>
      obtain ⟨_, _, heq⟩ := Option.map_eq_some_iff.mp hhanded
      cases heq
    | _ => cases hhanded

section Runs

variable (hlib : setup.lib.Lawful) (htext : setup.lib.WritesText)
  (hproto : setup.proto.Lawful Proto.CommandEnvelope.strings)

include hlib htext hproto

theorem JoinInv.step (h : JoinInv setup s) (event : TimedEvent) :
    JoinInv setup (s.step setup epoch event) := by
  cases event with
  | wait => exact ⟨h.follows, h.traced⟩
  | join v player queuedAtMs format io =>
    refine h.moves (moves_step hlib htext hproto _ _) ?_ ?_
    · split
      · exact subset_append_left _ _
      · exact List.Subset.refl _
    · rintro _ _ _ _ heq hlead
      cases heq
      rw [if_pos hlead]
      exact ⟨_, mem_append_right _ (mem_singleton_self _), rfl⟩
  | purge => exact h.moves (moves_step hlib htext hproto _ _) (List.Subset.refl _) nofun
  | other event hevent =>
    refine h.moves (moves_step hlib htext hproto _ _) (List.Subset.refl _) ?_
    rintro _ _ _ _ rfl
    cases hevent

/-- If the waiting times that leaders compute are no longer than the players have waited, nobody is
purged early. -/
theorem purged_after_waiting (epoch : NodeId → UInt64) (events : List TimedEvent)
    (h : Along (step setup epoch) (WaitsAsLong epoch) {} events) :
    Along (step setup epoch) (PurgesLate setup epoch) {} events := by
  refine h.of_invariant (fun s event (hs : JoinInv setup s) hwaits =>
    ⟨hs.step hlib htext hproto event, ?_⟩) ⟨fun _ => rfl, .initial⟩
  cases event with
  | purge v mode =>
    intro hlead p hp hlist
    refine ⟨hs.queued hp, fun join hjoin hsame => ?_⟩
    obtain ⟨q, hq, huser⟩ := mem_map.mp hlist
    obtain ⟨hq, hlate⟩ := mem_filter.mp hq
    -- a user is queued once, so the player who is late is the one listed
    have hdistinct := distinct_queuesAfter (s.cluster.appliedOps setup v) mode
    rw [← hs.follows v] at hdistinct
    obtain rfl := inj_on_of_nodup_map (pairwise_map.mpr hdistinct) hq hp huser
    have hwaited := UInt64.lt_iff_toNat_lt.mp (of_decide_eq_true hlate)
    have hpassed := hwaits hlead q hp join hjoin hsame
    omega
  | _ => trivial

end Runs

/-! ## Leaders that purge -/

theorem step_timed (cluster : ClusterConfig) : TimedCluster.step (matchOn cluster) =
    TimedCluster.step { matchOn cluster with lib := quick } := by
  funext epoch s event
  cases event <;> simp only [TimedCluster.step, step_matchOn]

def nodeEvents (events : List Event) : List TimedEvent :=
  events.map fun event => .other (.node event) rfl

/-- The only node of a cluster leads, and a player joins. -/
def annJoins : List TimedEvent :=
  nodeEvents (soloUp 0) ++ .join nodeA { userId := ascii "ann" } none .legacyJson [] ::
    nodeEvents soloAppended

/-- The theorem where a node purges a player whom it has stamped itself. -/
theorem purged_after_waiting_ann :
    (expiredPlayers {} (nowMs (fun _ => 7) nodeA 30001)
      (((annJoins.foldl (step (matchOn oneNode) fun _ => 7) {}).cluster.service nodeA).queues
        .oneVsOne)) = [ascii "ann"] ∧
      Along (step (matchOn oneNode) fun _ => 7) (PurgesLate (matchOn oneNode) fun _ => 7) {}
        (annJoins ++ [.wait 30001, .purge nodeA .oneVsOne .legacyJson []]) := by
  refine ⟨by rw [step_timed]; decide +kernel, ?_⟩
  refine purged_after_waiting reference_lawful reference_writesText Proto.commandReference_lawful
    _ _ ?_
  rw [step_timed]
  decide +kernel

def clocksApart (v : NodeId) : UInt64 := if v = nodeA then 0 else 40000

/-- `b` applies the join that `a` has stamped, becomes the leader and purges the player at once. -/
theorem purged_at_once :
    ¬Along (step (matchOn trio) clocksApart) (PurgesLate (matchOn trio) clocksApart) {}
      (nodeEvents electA ++ .join nodeA { userId := ascii "ann" } none .legacyJson [] ::
        nodeEvents (replicateFor 0 (makeJoinCommand { userId := ascii "ann" }) ++ succeedB) ++
        [.purge nodeB .oneVsOne .legacyJson []]) := by
  rw [step_timed]
  decide +kernel

end TimedCluster

end BoostGateway.Match
