import BoostGateway.Gateway.RequestValues
import BoostGateway.Runs

/-!
# What match_status answers

`pending_matches_` keeps every match that was applied, also when its players join again, and
`handle_match_status` takes the first match with the user that the iteration over the map meets. The
answer is about the current queueing as long as nobody joins who is in an earlier match and no match
takes the id of another one (`status_current`).
-/

namespace BoostGateway.Match

open List

structure StatusService where
  queues : Queues := fun _ => []
  pendingMatches : AList (fun _ : Bytes => MatchResult) := ∅
  /-- The matches that were applied to a user since the latest join of the user. -/
  sinceJoin : Bytes → List MatchResult := fun _ => []

inductive MatchStatus where
  | matched (matchId : Bytes) (mode : MatchMode) (avgMmr : Int64)
  | waiting (queueSize : Nat) (mode : Bytes)

def MatchResult.status (result : MatchResult) : MatchStatus :=
  .matched result.matchId result.mode result.avgMmr

namespace StatusService

/-- `apply_match_join`, `_leave`, `_purge` and `_found`. -/
def step (s : StatusService) (op : QueueOp) : StatusService :=
  let queues := op.apply s.queues
  match op with
  | .add player => { s with queues, sinceJoin := Function.update s.sinceJoin player.userId [] }
  | .commit result =>
    { queues
      pendingMatches := s.pendingMatches.insert result.matchId result
      sinceJoin := fun userId =>
        if userId ∈ result.playerIds then s.sinceJoin userId ++ [result] else s.sinceJoin userId }
  | .remove _ _ | .purge _ _ => { s with queues }

def found (s : StatusService) : List MatchResult := s.pendingMatches.entries.map (·.2)

def handleMatchStatus (s : StatusService) (visited : List MatchResult) (userId mode : Bytes) :
    MatchStatus :=
  match visited.find? (userId ∈ ·.playerIds) with
  | some result => result.status
  | none => .waiting (s.queues (Gateway.parseMode mode)).length mode

/-- In every order the answer is a match applied since the user's latest join, if there is one, and
else none. -/
def StatusCurrent (s : StatusService) : Prop :=
  ∀ visited userId mode, visited.Perm s.found →
    (s.sinceJoin userId = [] →
      ∃ size, s.handleMatchStatus visited userId mode = .waiting size mode) ∧
    (s.sinceJoin userId ≠ [] →
      ∃ result ∈ s.sinceJoin userId, s.handleMatchStatus visited userId mode = result.status)

/-- Who joins is in no match of the map, and matches have new ids. -/
def JoinsUnmatched (s : StatusService) : QueueOp → Prop
  | .add player => ∀ result ∈ s.found, player.userId ∉ result.playerIds
  | .commit result => result.matchId ∉ s.pendingMatches
  | _ => True

def KeepsCurrent (s : StatusService) : Prop :=
  ∀ userId result, result ∈ s.sinceJoin userId ↔ result ∈ s.found ∧ userId ∈ result.playerIds

variable {s : StatusService}

theorem KeepsCurrent.step (h : s.KeepsCurrent) {op : QueueOp} (hop : s.JoinsUnmatched op) :
    (s.step op).KeepsCurrent := by
  fun_cases StatusService.step s op with
  | case1 =>
    refine (Function.forall_update_iff s.sinceJoin fun userId applied => ∀ res,
      res ∈ applied ↔ res ∈ s.found ∧ userId ∈ res.playerIds).mpr
      ⟨fun res => ?_, fun userId _ => h userId⟩
    exact iff_of_false not_mem_nil fun hmem => hop res hmem.1 hmem.2
  | case2 applied queues =>
    intro userId res
    have hfind : (s.step (.commit applied)).found = applied :: s.found := by
      show List.map _ (s.pendingMatches.insert applied.matchId applied).entries = _
      rw [AList.entries_insert_of_notMem hop]
      rfl
    refine Iff.trans ?_ (and_congr_left' (hfind ▸ mem_cons)).symm
    dsimp only
    split
    next huser =>
      rw [mem_append, mem_singleton, h]
      constructor
      · rintro (⟨hold, hmem⟩ | rfl)
        · exact ⟨.inr hold, hmem⟩
        · exact ⟨.inl rfl, huser⟩
      · rintro ⟨rfl | hold, hmem⟩
        · exact .inr rfl
        · exact .inl ⟨hold, hmem⟩
    next huser =>
      rw [h]
      refine and_congr_left fun hmem => (or_iff_right ?_).symm
      rintro rfl
      exact huser hmem
  | case3 | case4 => exact h

theorem KeepsCurrent.statusCurrent (h : s.KeepsCurrent) : s.StatusCurrent := by
  intro visited userId mode hvisited
  unfold handleMatchStatus
  cases hfind : visited.find? (userId ∈ ·.playerIds) with
  | some res =>
    have hmem : res ∈ s.sinceJoin userId := (h userId res).mpr
      ⟨hvisited.mem_iff.mp (mem_of_find?_eq_some hfind), by simpa using List.find?_some hfind⟩
    exact ⟨fun hnil => by simp [hnil] at hmem, fun _ => ⟨res, hmem, rfl⟩⟩
  | none =>
    refine ⟨fun _ => ⟨_, rfl⟩, fun hne => ?_⟩
    obtain ⟨res, hres⟩ := exists_mem_of_ne_nil _ hne
    obtain ⟨hfound, huser⟩ := (h userId res).mp hres
    have hnot := List.find?_eq_none.mp hfind res (hvisited.mem_iff.mpr hfound)
    exact absurd huser (by simpa using hnot)

/-- If nobody joins who is in an earlier match and every match has a new id, `match_status` answers
with a match applied since the latest join whenever there is one. -/
theorem status_current (ops : List QueueOp) (h : Along step JoinsUnmatched {} ops) :
    Always step StatusCurrent {} ops := by
  have hinit : KeepsCurrent {} := by simp [KeepsCurrent, found]
  exact h.always (fun _ _ hs => hs.step) (fun _ hs => hs.statusCurrent) hinit

def annBobMatch : MatchResult where
  matchId := ascii "match_1"
  mode := .oneVsOne
  playerIds := [ascii "ann", ascii "bob"]
  avgMmr := 1000

/-- Two players join and are matched. -/
def annBobOps : List QueueOp :=
  [.add { userId := ascii "ann" }, .add { userId := ascii "bob" }, .commit annBobMatch]

theorem status_current_annBob : Always step StatusCurrent {} annBobOps :=
  status_current _ (by
    simp [annBobOps, along_cons, along_nil, JoinsUnmatched, found, StatusService.step])

/-- A player who joins again is told of the old match. -/
theorem old_match_answered :
    ¬ Always step StatusCurrent {} (annBobOps ++ [.add { userId := ascii "ann" }]) := by
  intro h
  have hstatus := h _ [] (append_nil _).symm [annBobMatch] (ascii "ann") (ascii "1v1") (by rfl)
  obtain ⟨size, hsize⟩ := hstatus.1 (by decide)
  cases hsize

end StatusService

end BoostGateway.Match
