import BoostGateway.Bytes
import Mathlib.Data.List.Sort
import Mathlib.Data.List.AList
import Mathlib.Data.List.Induction

/-!
# Matchmaking

`MatchQueue`, the parts of `Matchmaker` that read it, and the service. `CommitsQueued.oncePerJoin`
says what it means for the joins if every match is committed from the queue.
-/

namespace BoostGateway.Match

open List

inductive MatchMode where
  | oneVsOne
  | twoVsTwo
  | fourVsFour
  deriving DecidableEq

def playersForMode : MatchMode → Nat
  | .oneVsOne => 2
  | .twoVsTwo => 4
  | .fourVsFour => 8

structure MatchPlayer where
  userId : Bytes
  mmr : Int64 := 1000
  queuedAtMs : UInt64 := 0
  mode : MatchMode := .oneVsOne
  deriving DecidableEq

structure MatchResult where
  matchId : Bytes
  mode : MatchMode
  playerIds : List Bytes
  avgMmr : Int64
  deriving DecidableEq

/-- `std::sort` by queue time, any order for equal ones. -/
structure QueueSort where
  sort : List MatchPlayer → List MatchPlayer
  perm : ∀ players, (sort players).Perm players
  sorted : ∀ players, (sort players).Pairwise (·.queuedAtMs ≤ ·.queuedAtMs)

/-- The sort that keeps the order of players with the same time. -/
def stableSort : QueueSort where
  sort := List.insertionSort (·.queuedAtMs ≤ ·.queuedAtMs)
  perm := perm_insertionSort _
  sorted players := by
    have htotal : Std.Total fun a b : MatchPlayer => a.queuedAtMs ≤ b.queuedAtMs :=
      ⟨fun a b => UInt64.le_total a.queuedAtMs b.queuedAtMs⟩
    have htrans : IsTrans MatchPlayer fun a b => a.queuedAtMs ≤ b.queuedAtMs :=
      ⟨fun _ _ _ => UInt64.le_trans⟩
    exact pairwise_insertionSort _ players

/-! ## The queues -/

abbrev Queues := MatchMode → List MatchPlayer

def Queues.modify (queues : Queues) (mode : MatchMode) (f : List MatchPlayer → List MatchPlayer) :
    Queues :=
  fun m => if m = mode then f (queues m) else queues m

inductive QueueOp where
  /-- `MatchQueue::add` -/
  | add (player : MatchPlayer)
  /-- `MatchQueue::remove` -/
  | remove (mode : MatchMode) (userId : Bytes)
  /-- `MatchQueue::remove_players` for a purge -/
  | purge (mode : MatchMode) (userIds : List Bytes)
  /-- `Matchmaker::commit_match` -/
  | commit (result : MatchResult)
  deriving DecidableEq

def removePlayers (userIds : List Bytes) (players : List MatchPlayer) : List MatchPlayer :=
  userIds.foldl (fun players userId => players.filter (·.userId != userId)) players

def QueueOp.apply (op : QueueOp) (queues : Queues) : Queues :=
  match op with
  | .add player =>
    queues.modify player.mode fun players =>
      players.filter (·.userId != player.userId) ++ [player]
  | .remove mode userId => queues.modify mode (·.eraseP (·.userId == userId))
  | .purge mode userIds => queues.modify mode (removePlayers userIds)
  | .commit result => queues.modify result.mode (removePlayers result.playerIds)

def queuesAfter (ops : List QueueOp) : Queues :=
  ops.foldl (fun queues op => op.apply queues) fun _ => []

@[simp]
theorem queuesAfter_concat (ops : List QueueOp) (op : QueueOp) :
    queuesAfter (ops ++ [op]) = op.apply (queuesAfter ops) := by simp [queuesAfter]

/-! ## Looking for a match -/

def getEligible (order : QueueSort) (center range : Int64) (players : List MatchPlayer) :
    List MatchPlayer :=
  order.sort (players.filter fun p =>
    (if center < p.mmr then p.mmr - center else center - p.mmr) ≤ range)

/-- The longest waiting in the range of an anchor, if enough. -/
def findMatch (order : QueueSort) (range : Int64) (mode : MatchMode) (anchor : MatchPlayer)
    (number : UInt64) (queues : Queues) : Option MatchResult :=
  let eligible := getEligible order anchor.mmr range (queues mode)
  if eligible.length < playersForMode mode then none
  else
    let chosen := eligible.take (playersForMode mode)
    some
      { matchId := ascii "match_" ++ decimal number.toNat
        mode
        playerIds := chosen.map (·.userId)
        avgMmr := (chosen.map (·.mmr)).sum / Int64.ofNat (playersForMode mode) }

def Queued (queues : Queues) (mode : MatchMode) (userId : Bytes) : Prop :=
  userId ∈ (queues mode).map (·.userId)

variable {mode : MatchMode} {userId : Bytes} {op : QueueOp} {ops : List QueueOp}

theorem queued_of_findMatch {order : QueueSort} {range : Int64} {anch : MatchPlayer}
    {number : UInt64} {queues : Queues} {res : MatchResult}
    (h : findMatch order range mode anch number queues = some res)
    (huser : userId ∈ res.playerIds) : Queued queues res.mode userId := by
  dsimp only [findMatch] at h
  split at h
  · cases h
  · cases h
    obtain ⟨player, hchosen, rfl⟩ := mem_map.mp huser
    have hsort := (order.perm _).subset (mem_of_mem_take hchosen)
    exact mem_map_of_mem (mem_of_mem_filter hsort)

/-! ## What an operation does to a player -/

def QueueOp.removes (op : QueueOp) (mode : MatchMode) : List Bytes :=
  match op with
  | .add _ => []
  | .remove m userId => if m = mode then [userId] else []
  | .purge m userIds => if m = mode then userIds else []
  | .commit result => if result.mode = mode then result.playerIds else []

def QueueOp.queues (op : QueueOp) (mode : MatchMode) (userId : Bytes) : Prop :=
  ∃ player, op = .add player ∧ player.userId = userId ∧ player.mode = mode

variable {userIds : List Bytes} {players : List MatchPlayer}

theorem mem_removePlayers {player : MatchPlayer} :
    player ∈ removePlayers userIds players ↔ player ∈ players ∧ player.userId ∉ userIds := by
  unfold removePlayers
  induction userIds generalizing players with
  | nil => simp
  | cons userId rest ih =>
    rw [foldl_cons, ih]
    simp only [mem_filter, bne_iff_ne, mem_cons, not_or, and_assoc]

theorem queued_removePlayers : userId ∈ (removePlayers userIds players).map (·.userId) ↔
      userId ∈ players.map (·.userId) ∧ userId ∉ userIds := by
  simp only [mem_map, mem_removePlayers]
  constructor
  · rintro ⟨player, ⟨hmem, hnot⟩, rfl⟩
    exact ⟨⟨player, hmem, rfl⟩, hnot⟩
  · rintro ⟨⟨player, hmem, rfl⟩, hnot⟩
    exact ⟨player, ⟨hmem, hnot⟩, rfl⟩

/-- A player stays queued until an operation takes them out. -/
theorem Queued.apply {queues : Queues} (h : Queued queues mode userId)
    (hop : userId ∉ op.removes mode) : Queued (op.apply queues) mode userId := by
  unfold Queued at h ⊢
  cases op <;> simp only [QueueOp.apply, Queues.modify] <;> split <;> try exact h
  case add.isTrue player _ =>
    rw [map_append, mem_append]
    by_cases hsame : player.userId = userId
    · exact .inr (by simp [hsame])
    · obtain ⟨p, hp, rfl⟩ := mem_map.mp h
      refine .inl (mem_map_of_mem (mem_filter.mpr ⟨hp, ?_⟩))
      simpa using Ne.symm hsame
  case remove.isTrue m user hmode =>
    obtain ⟨p, hp, rfl⟩ := mem_map.mp h
    have hne : p.userId ≠ user := by simpa [QueueOp.removes, hmode] using hop
    exact mem_map_of_mem ((mem_eraseP_of_neg (by simpa using hne)).mpr hp)
  all_goals
    rename_i hmode
    exact queued_removePlayers.mpr ⟨h, by simpa [QueueOp.removes, hmode] using hop⟩

theorem mem_apply {queues : Queues} {player : MatchPlayer} (h : player ∈ op.apply queues mode) :
    player ∈ queues mode ∨ op = .add player ∧ player.mode = mode := by
  cases op <;> simp only [QueueOp.apply, Queues.modify] at h <;> split at h <;> try exact .inl h
  case add.isTrue hmode =>
    rcases mem_append.mp h with hold | hnew
    · exact .inl (mem_of_mem_filter hold)
    · obtain rfl := mem_singleton.mp hnew
      exact .inr ⟨rfl, hmode.symm⟩
  case remove.isTrue => exact .inl (mem_of_mem_eraseP h)
  all_goals exact .inl (mem_removePlayers.mp h).1

theorem queued_before {queues : Queues} (h : Queued (op.apply queues) mode userId)
    (hop : ¬ op.queues mode userId) : Queued queues mode userId := by
  obtain ⟨player, hplayer, rfl⟩ := mem_map.mp h
  rcases mem_apply hplayer with hold | ⟨hadd, hmode⟩
  · exact mem_map_of_mem hold
  · exact absurd ⟨player, hadd, rfl, hmode⟩ hop

theorem not_queued_of_commit (res : MatchResult) (queues : Queues)
    (huser : userId ∈ res.playerIds) :
    ¬ Queued ((QueueOp.commit res).apply queues) res.mode userId := by
  intro h
  simp only [Queued, QueueOp.apply, Queues.modify, if_true] at h
  exact (queued_removePlayers.mp h).2 huser

/-! ## Sound sequences of operations -/

def CommitsQueued (ops : List QueueOp) : Prop :=
  ∀ before result after, ops = before ++ .commit result :: after →
    ∀ userId ∈ result.playerIds, Queued (queuesAfter before) result.mode userId

/-- Between two matches of a player comes a join. -/
def OncePerJoin (ops : List QueueOp) : Prop := ∀ before result between result' after,
    ops = before ++ .commit result :: (between ++ .commit result' :: after) →
    result'.mode = result.mode → ∀ userId ∈ result.playerIds, userId ∈ result'.playerIds →
      ∃ op ∈ between, op.queues result.mode userId

theorem commitsQueued_nil : CommitsQueued [] := by
  intro before res after h
  exact absurd h (by simp)

theorem CommitsQueued.concat (h : CommitsQueued ops)
    (hop : ∀ res, op = .commit res → ∀ userId ∈ res.playerIds,
      Queued (queuesAfter ops) res.mode userId) : CommitsQueued (ops ++ [op]) := by
  intro before res after heq userId huser
  rcases eq_nil_or_concat after with rfl | ⟨rest, last, rfl⟩
  · obtain ⟨rfl, hlast⟩ := append_inj' heq rfl
    exact hop res (singleton_inj.mp hlast) userId huser
  · rw [concat_eq_append, ← cons_append, ← append_assoc] at heq
    obtain ⟨rfl, -⟩ := append_inj' heq rfl
    exact h before res rest rfl userId huser

theorem queued_of_foldl (hops : ∀ op ∈ ops, ¬ op.queues mode userId) {queues : Queues}
    (h : Queued (ops.foldl (fun queues op => op.apply queues) queues) mode userId) :
    Queued queues mode userId := by
  induction ops generalizing queues with
  | nil => exact h
  | cons op rest ih =>
    obtain ⟨hop, hrest⟩ := forall_mem_cons.mp hops
    exact queued_before (ih hrest h) hop

theorem CommitsQueued.oncePerJoin (h : CommitsQueued ops) : OncePerJoin ops := by
  intro before res between result' after heq hmode userId huser huser'
  by_contra hnone
  have hagain : ops = (before ++ .commit res :: between) ++ .commit result' :: after := by
    rw [heq, append_assoc, cons_append]
  have hqueued := h _ _ _ hagain userId huser'
  rw [hmode] at hqueued
  have hearlier : Queued ((QueueOp.commit res).apply (queuesAfter before)) res.mode userId := by
    refine queued_of_foldl (fun op hop hadds => hnone ⟨op, hop, hadds⟩) ?_
    simpa [queuesAfter] using hqueued
  exact not_queued_of_commit res _ huser hearlier

/-! ## The matchmaking service

In local mode threads share the queues, and a thread is the list of critical sections it has still
to run. -/

structure MatchmakingConfig where
  mmrRangeInitial : Int64 := 100
  maxWaitMs : UInt64 := 30000

/-- `MatchQueue::expired_players`. The subtraction is unsigned. -/
def expiredPlayers (config : MatchmakingConfig) (now : UInt64) (players : List MatchPlayer) :
    List Bytes :=
  (players.filter fun p => config.maxWaitMs < now - p.queuedAtMs).map (·.userId)

/-! ## Local mode -/

inductive Section where
  /-- An operation on a queue; a commit is the first half of `apply_match_found`. -/
  | operate (op : QueueOp)
  /-- `snapshot_by_queue_time` in `try_match_mode` -/
  | snapshot (mode : MatchMode)
  /-- `get_eligible` for the first of the anchors that are left -/
  | examine (mode : MatchMode) (anchors : List MatchPlayer)
  /-- The second half of `apply_match_found` -/
  | record (result : MatchResult)
  /-- `expired_players` -/
  | expire (mode : MatchMode)
  deriving DecidableEq

/-- The shared state and the threads, the matcher first. -/
structure LocalService where
  queues : Queues := fun _ => []
  pendingMatches : AList (fun _ : Bytes => MatchResult) := ∅
  nextMatchId : UInt64 := 1
  threads : List (List Section) := [[]]

inductive MatchRequest where
  /-- `handle_match_join` -/
  | join (player : MatchPlayer)
  /-- `handle_match_leave` -/
  | leave (mode : MatchMode) (userId : Bytes)

def MatchRequest.sections : MatchRequest → List Section
  | .join player => [.operate (.add player), .snapshot player.mode]
  | .leave mode userId => [.operate (.remove mode userId)]

def matcherRound : List Section :=
  [.snapshot .oneVsOne, .expire .oneVsOne, .snapshot .twoVsTwo, .expire .twoVsTwo,
    .snapshot .fourVsFour, .expire .fourVsFour]

inductive LocalStep where
  | request (request : MatchRequest)
  /-- The matcher thread begins another round. -/
  | wake
  /-- A thread runs its next section, at a time of the clock. -/
  | run (thread : Nat) (now : UInt64)

/-- A section: the state after it, and new sections. -/
def Section.run (order : QueueSort) (config : MatchmakingConfig) (now : UInt64)
    (s : LocalService) : Section → LocalService × List Section
  | .operate op =>
    ({ s with queues := op.apply s.queues },
      match op with
      | .commit result => [.record result]
      | _ => [])
  | .snapshot mode => (s, [.examine mode (order.sort (s.queues mode))])
  | .examine _ [] => (s, [])
  | .examine mode (anchor :: anchors) =>
    match findMatch order config.mmrRangeInitial mode anchor s.nextMatchId s.queues with
    | none => (s, [.examine mode anchors])
    | some result =>
      ({ s with nextMatchId := s.nextMatchId + 1 }, [.operate (.commit result)])
  | .record result =>
    ({ s with pendingMatches := s.pendingMatches.insert result.matchId result }, [])
  | .expire mode =>
    let expired := expiredPlayers config now (s.queues mode)
    (s, if expired.isEmpty then [] else [.operate (.purge mode expired)])

/-- One step, and its operation on a queue, if any. -/
def LocalService.step (order : QueueSort) (config : MatchmakingConfig) (s : LocalService) :
    LocalStep → LocalService × Option QueueOp
  | .request request => ({ s with threads := s.threads ++ [request.sections] }, none)
  | .wake =>
    if s.threads[0]? = some [] then ({ s with threads := s.threads.set 0 matcherRound }, none)
    else (s, none)
  | .run thread now =>
    match s.threads[thread]? with
    | some (next :: rest) =>
      let (s', more) := next.run order config now s
      ({ s' with threads := s.threads.set thread (more ++ rest) },
        match next with
        | .operate op => some op
        | _ => none)
    | _ => (s, none)

/-- The service after some steps, and their operations. -/
def LocalService.after (order : QueueSort) (config : MatchmakingConfig) :
    LocalService → List QueueOp → List LocalStep → LocalService × List QueueOp
  | s, ops, [] => (s, ops)
  | s, ops, step :: rest =>
    let (s', op) := s.step order config step
    after order config s' (ops ++ op.toList) rest

end BoostGateway.Match
