import BoostGateway.Raft.Deliveries
import BoostGateway.Raft.Reference
import BoostGateway.Raft.Replication

/-!
# What `validate_state` relies on

A node keeps its indices in order and its terms in range, so that its state can always be saved,
unless a merge cuts the log below the commit index, an election follows the largest term, or a vote
goes to a candidate whose id is not UTF-8 (`boundsStep`, `node_bounds`).
-/

namespace BoostGateway.Raft

open List

/-! ## Calls of one node -/

/-- The encoded state is within `max_state_bytes`. -/
def Fits (lib : Libraries) (cfg : RaftConfig) (state : RaftPersistentState) : Prop :=
  match stateText lib state cfg.nodeId with
  | .ok bytes => bytes.length ≤ defaultLimits.maxStateBytes
  | .error _ => True

/-- UTF-8 commands, returning RPCs, accepting callbacks. -/
def Undisturbed : Action → Prop
  | .boot _ => False
  | .voteReplied (.threw _) => False
  | .heartbeatReplied _ (.threw _) => False
  | .callbackReturned verdict => verdict = .accepted
  | .appendEntries args => ∀ entry ∈ args.entries, utf8Valid entry.command = true
  | .appendCommand command => utf8Valid command = true
  | _ => True

def KeepsCommit (node : RaftNode) (args : AppendEntriesArgs) : Prop :=
  args.entries <+: node.log.drop args.prevLogIndex ∨
    node.commitIndex ≤ args.prevLogIndex + args.entries.length ∨
    node.commitIndex < args.leaderCommit ∧
      node.lastApplied ≤ args.prevLogIndex + args.entries.length

/-- No overflow, UTF-8 ids, and no cut below the commit index. -/
def boundsStep (p : Process) : Action → Prop
  | .startElection => p.host.node.currentTerm + 1 < 2 ^ 64
  | .requestVote args =>
    isValidRequestVote args = true → p.host.node.currentTerm ≤ args.term →
      utf8Valid args.candidateId = true
  | .appendEntries args =>
    acceptsEntries p.host.node args = true → KeepsCommit p.host.node args
  | _ => True

instance (lib : Libraries) (cfg : RaftConfig) (state : RaftPersistentState) :
    Decidable (Fits lib cfg state) := by
  unfold Fits
  split <;> infer_instance

instance (action : Action) : Decidable (Undisturbed action) := by
  unfold Undisturbed
  induction action using Action.casesOn with
  | voteReplied result | heartbeatReplied thread result =>
    induction result using RpcResult.casesOn <;> infer_instance
  | _ => infer_instance

instance (node : RaftNode) (args : AppendEntriesArgs) : Decidable (KeepsCommit node args) := by
  unfold KeepsCommit
  infer_instance

instance (p : Process) (action : Action) : Decidable (boundsStep p action) := by
  unfold boundsStep
  induction action using Action.casesOn <;> infer_instance

section Runs

variable (lib : Libraries) (cfg : RaftConfig) (condition : Process → Action → Prop)

/-- The states reached without I/O failures that fit the file. -/
inductive NodeRun (start : Process) : Process → Prop where
  | refl : NodeRun start start
  | step {p next : Process} {action : Action} {outputs : List Output} :
      NodeRun start p → Undisturbed action → condition p action →
      p.step lib cfg action [] = some (next, outputs) →
      (∀ state ∈ next.host.saves, Fits lib cfg state) → NodeRun start next

/-- Make calls in order, as long as they meet the conditions. -/
def callAll [∀ p action, Decidable (condition p action)] (p : Process) :
    List Action → Option Process
  | [] => some p
  | action :: rest =>
    if Undisturbed action ∧ condition p action then
      match p.step lib cfg action [] with
      | some (next, _) =>
        if ∀ state ∈ next.host.saves, Fits lib cfg state then callAll next rest else none
      | none => none
    else none

variable {lib cfg condition}

theorem NodeRun.callAll [∀ p action, Decidable (condition p action)] {start p after : Process}
    {actions : List Action} (hrun : NodeRun lib cfg condition start p)
    (h : callAll lib cfg condition p actions = some after) :
    NodeRun lib cfg condition start after := by
  induction actions generalizing p with
  | nil =>
    cases h
    exact hrun
  | cons action rest ih =>
    unfold Raft.callAll at h
    split at h
    next hcond =>
      split at h
      next next outputs hstep =>
        split at h
        next hfits => exact ih (hrun.step hcond.1 hcond.2 hstep hfits) h
        · cases h
      · cases h
    · cases h

end Runs

/-! ## States that can be saved -/

structure SavableId (cfg : RaftConfig) : Prop where
  storage : validateStorageNodeId cfg.nodeId defaultLimits (statePath cfg) = .ok ()
  utf8 : utf8Valid cfg.nodeId = true

structure Sound (node : RaftNode) : Prop where
  wellFormed : WellFormed defaultLimits node.persistent
  vote : ∀ id, node.votedFor = some id → utf8Valid id = true
  commands : ∀ entry ∈ node.log, utf8Valid entry.command = true
  term : node.state ≠ .follower → 1 ≤ node.currentTerm

/-- The inputs of a section that keep a state sound. -/
structure Harmless (scope : Scope) : Prop where
  healthy : scope.before.healthy = true
  fails : scope.fails = false
  delivers : scope.delivers = false
  elects : scope.elects = true → scope.before.currentTerm + 1 < 2 ^ 64
  request : ∀ args, scope.request = some args → isValidRequestVote args = true →
    scope.before.currentTerm ≤ args.term → utf8Valid args.candidateId = true
  message : ∀ args, scope.message = some args →
    (∀ entry ∈ args.entries, utf8Valid entry.command = true) ∧
      (acceptsEntries scope.before args = true → KeepsCommit scope.before args)
  command : ∀ command, scope.command = some command → utf8Valid command = true

section Saves

variable {lib : Libraries} {cfg : RaftConfig} {host after : Host} {ok : Bool}

theorem SavableId.isOpaque (h : SavableId cfg) :
    isOpaqueNodeId cfg.nodeId defaultLimits = true := by
  obtain ⟨_, hcheck, _⟩ := bind_ok_iff.mp h.storage
  simpa [validateOpaqueNodeId] using hcheck

variable {node : RaftNode}

theorem Sound.utf8 (h : Sound node) : node.persistent.utf8 = true := by
  refine Bool.and_eq_true_iff.mpr ⟨?_, all_eq_true.mpr h.commands⟩
  cases hvote : node.votedFor with
  | none => simp [RaftNode.persistent, hvote]
  | some id => simpa [RaftNode.persistent, hvote] using h.vote id hvote

theorem Sound.savable (h : Sound node) (hlib : lib.Lawful) (hid : SavableId cfg)
    (hfits : Fits lib cfg node.persistent) : Savable lib cfg node.persistent := by
  obtain ⟨bytes, hbytes⟩ := (exists_stateText_iff hlib).mpr ⟨hid.utf8, h.utf8⟩
  have hsize : bytes.length ≤ defaultLimits.maxStateBytes := by
    simpa only [Fits, hbytes] using hfits
  refine ⟨bytes, bind_ok (a := ()) hid.storage ?_⟩
  exact (encodeV1_ok_iff hlib).mpr ⟨h.wellFormed, hbytes, hsize⟩

theorem saves_subset (hsave : persistStateLocked lib cfg host = (after, ok)) :
    host.saves ⊆ after.saves := by
  have hsubset : host.saves ⊆ (save lib cfg host.node.persistent host).1.saves := by
    dsimp only [save]
    split
    · exact subset_append_left _ _
    · split <;> exact subset_append_left _ _
  unfold persistStateLocked at hsave
  split at hsave
  · cases hsave
    exact List.Subset.refl _
  split at hsave
  · cases hsave
    exact List.Subset.refl _
  generalize save lib cfg host.node.persistent host = result at hsave hsubset
  obtain ⟨saved, error⟩ := result
  cases error with
  | none | some =>
    cases hsave
    exact hsubset

/-- A sound state is saved and the node stays. -/
theorem Sound.persist (h : Sound host.node) (hlib : lib.Lawful) (hid : SavableId cfg)
    (hup : host.node.healthy = true) (hio : host.io = [])
    (hsave : persistStateLocked lib cfg host = (after, ok))
    (hfits : ∀ state ∈ after.saves, Fits lib cfg state) :
    after.node = host.node ∧ after.io = [] ∧ ok = true := by
  unfold persistStateLocked at hsave
  simp only [hup, Bool.not_true, Bool.false_eq_true, if_false] at hsave
  split at hsave
  · cases hsave
    exact ⟨rfl, hio, rfl⟩
  cases henc : encodeSave lib cfg host.node.persistent with
  | ok =>
    simp only [save, henc, hio] at hsave
    cases hsave
    exact ⟨rfl, rfl, rfl⟩
  | error =>
    simp only [save, henc] at hsave
    cases hsave
    obtain ⟨bytes, hbytes⟩ := h.savable hlib hid (hfits _ (by simp))
    rw [henc] at hbytes
    cases hbytes

end Saves

/-! ## Changes -/

section Changes

variable {lib : Libraries} {cfg : RaftConfig} {scope : Scope} {node node' : RaftNode}

section

variable (h : Sound node)

include h

theorem Sound.congr (hpers : node'.persistent = node.persistent)
    (hterm : node'.state ≠ .follower → 1 ≤ node'.currentTerm) : Sound node' where
  wellFormed := hpers ▸ h.wellFormed
  vote id hid := h.vote id ((congrArg RaftPersistentState.votedFor hpers).symm.trans hid)
  commands entry hentry := by
    have hlog : node'.log = node.log := congrArg RaftPersistentState.log hpers
    exact h.commands entry (hlog ▸ hentry)
  term := hterm

theorem Sound.asFollower {term : Nat} (hle : node.currentTerm ≤ term) :
    Sound (asFollower term node) where
  wellFormed :=
    { h.wellFormed with
      votedFor := fun id hid => nomatch hid
      entries := fun entry hentry => by
        obtain ⟨hpos, hterm, hsize⟩ := h.wellFormed.entries entry hentry
        exact ⟨hpos, Nat.le_trans hterm hle, hsize⟩ }
  vote id hid := nomatch hid
  commands := h.commands
  term hst := absurd rfl hst

theorem Sound.asCandidate (hid : SavableId cfg)
    (hlt : node.currentTerm + 1 < 2 ^ 64) : Sound (asCandidate cfg node) := by
  have hterm : (Raft.asCandidate cfg node).currentTerm = node.currentTerm + 1 :=
    Nat.mod_eq_of_lt hlt
  refine ⟨⟨?_, h.wellFormed.logSize, h.wellFormed.commit, h.wellFormed.applied, ?_⟩, ?_,
    h.commands, ?_⟩
  · rintro id hvote
    cases hvote
    exact ⟨hid.isOpaque, by show (Raft.asCandidate cfg node).currentTerm ≠ 0; omega⟩
  · intro entry hentry
    obtain ⟨hpos, hle, hsize⟩ := h.wellFormed.entries entry hentry
    have hle : entry.term ≤ node.currentTerm := hle
    exact ⟨hpos, by show entry.term ≤ (Raft.asCandidate cfg node).currentTerm; omega, hsize⟩
  · rintro id hvote
    cases hvote
    exact hid.utf8
  · intro _
    omega

theorem Sound.vote_for {args : RequestVoteArgs} (hval : isValidRequestVote args = true)
    (hterm : node.currentTerm = args.term) (hutf8 : utf8Valid args.candidateId = true) :
    Sound { node with votedFor := some args.candidateId } := by
  have hchecks : args.term ≠ 0 ∧ isValidPeerId args.candidateId = true := by
    unfold isValidRequestVote at hval
    split at hval
    · cases hval
    next hguard =>
      simp only [not_or] at hguard
      exact ⟨hguard.1, by simpa using hguard.2.1⟩
  refine ⟨{ h.wellFormed with votedFor := ?_ }, ?_, h.commands, h.term⟩
  · rintro id hvote
    cases hvote
    exact ⟨hchecks.2, by show node.currentTerm ≠ 0; rw [hterm]; exact hchecks.1⟩
  · rintro id hvote
    cases hvote
    exact hutf8

theorem Sound.updateCommitIndexLocked : Sound (updateCommitIndexLocked cfg node) := by
  rcases updateCommitIndexLocked_cases cfg node with hsame | ⟨index, hlt, hle, _, _, hraised⟩
  · rwa [hsame]
  · rw [hraised]
    have happ : node.lastApplied ≤ node.commitIndex := h.wellFormed.applied
    exact ⟨{ h.wellFormed with commit := hle, applied := Nat.le_trans happ hlt.le }, h.vote,
      h.commands, h.term⟩

theorem Sound.pushCommand {cmd : Bytes} (hst : node.state = .leader)
    (hsize : cmd.length ≤ defaultLimits.maxCommandBytes)
    (hlen : node.log.length < defaultLimits.maxLogEntries)
    (hutf8 : utf8Valid cmd = true) : Sound (pushCommand cfg cmd node) := by
  have hlog : (Raft.pushCommand cfg cmd node).log.length = node.log.length + 1 := by
    simp [Raft.pushCommand]
  have hcom : node.commitIndex ≤ node.log.length := h.wellFormed.commit
  refine ⟨⟨h.wellFormed.votedFor, ?_, ?_, h.wellFormed.applied, ?_⟩, h.vote, ?_, h.term⟩
  · show (Raft.pushCommand cfg cmd node).log.length ≤ _
    omega
  · show node.commitIndex ≤ (Raft.pushCommand cfg cmd node).log.length
    omega
  · intro entry hentry
    rcases mem_append.mp hentry with hentry | hentry
    · exact h.wellFormed.entries entry hentry
    · obtain rfl := mem_singleton.mp hentry
      exact ⟨h.term (by simp [hst]), le_rfl, hsize⟩
  · intro entry hentry
    rcases mem_append.mp hentry with hentry | hentry
    · exact h.commands entry hentry
    · obtain rfl := mem_singleton.mp hentry
      exact hutf8

theorem Sound.truncateLog (prevLogIndex : Nat) : Sound (truncateLog prevLogIndex node) := by
  have hlen : (node.log.take (prevLogIndex - 1)).length ≤ node.log.length := length_take_le' _ _
  have hsize : node.log.length ≤ defaultLimits.maxLogEntries := h.wellFormed.logSize
  refine ⟨⟨h.wellFormed.votedFor, Nat.le_trans hlen hsize, Nat.min_le_right _ _,
    Nat.min_le_right _ _, ?_⟩, h.vote, ?_, h.term⟩
  · exact fun entry hentry => h.wellFormed.entries entry (mem_of_mem_take hentry)
  · exact fun entry hentry => h.commands entry (mem_of_mem_take hentry)

variable {args : AppendEntriesArgs}

omit h in
theorem entries_of_isValid (h : isValidAppendEntries args = true) :
    args.prevLogIndex + args.entries.length ≤ defaultLimits.maxLogEntries ∧
      ∀ entry ∈ args.entries, 1 ≤ entry.term ∧ entry.term ≤ args.term ∧
        entry.command.length ≤ defaultLimits.maxCommandBytes := by
  unfold isValidAppendEntries at h
  split at h
  · cases h
  next hguard =>
  simp only [not_or, Nat.not_lt] at hguard
  refine ⟨by omega, fun entry hentry => ?_⟩
  have hvalid := all_eq_true.mp h entry hentry
  simp only [isValidEntry, Bool.and_eq_true, decide_eq_true_eq] at hvalid
  exact ⟨hvalid.1.1, hvalid.1.2, hvalid.2⟩

/-- A merge that does not cut the log below the commit index. -/
theorem Sound.mergeLog (hacc : Accepting scope.before args node)
    (hutf8 : ∀ entry ∈ args.entries, utf8Valid entry.command = true)
    (hkeeps : KeepsCommit scope.before args) : Sound (mergeLog args node) := by
  obtain ⟨hsize, hval⟩ := entries_of_isValid hacc.valid
  have hcom : node.commitIndex ≤ node.log.length := h.wellFormed.commit
  have happ : node.lastApplied ≤ node.commitIndex := h.wellFormed.applied
  have hold : node.log.length ≤ defaultLimits.maxLogEntries := h.wellFormed.logSize
  have hmerge : mergeEntries node.log args.prevLogIndex args.entries = _ :=
    mergeEntries_eq hacc.prevLogIndex
  rw [KeepsCommit, ← hacc.log, ← hacc.commitIndex, ← hacc.lastApplied] at hkeeps
  have hentries : ∀ entry ∈ (Raft.mergeLog args node).log,
      entry ∈ node.log ∨ entry ∈ args.entries := by
    intro entry hentry
    rw [Raft.mergeLog, hmerge] at hentry
    dsimp only at hentry
    split at hentry
    · exact .inl hentry
    · exact (mem_append.mp hentry).imp_left mem_of_mem_take
  have hbounds : (Raft.mergeLog args node).log.length ≤ defaultLimits.maxLogEntries ∧
      (Raft.mergeLog args node).commitIndex ≤ (Raft.mergeLog args node).log.length ∧
      node.lastApplied ≤ (Raft.mergeLog args node).commitIndex := by
    rw [Raft.mergeLog, hmerge]
    dsimp only
    by_cases hpre : args.entries <+: node.log.drop args.prevLogIndex
    · simp only [hpre, if_true]
      split <;> omega
    · have hlen : (node.log.take args.prevLogIndex ++ args.entries).length =
          args.prevLogIndex + args.entries.length := by
        rw [length_append, length_take, Nat.min_eq_left hacc.prevLogIndex]
      simp only [hpre, if_false, hlen]
      rcases hkeeps with hkeeps | hkeeps | hkeeps
      · exact absurd hkeeps hpre
      · split <;> omega
      · split <;> omega
  refine ⟨⟨h.wellFormed.votedFor, hbounds.1, hbounds.2.1, hbounds.2.2, fun entry hentry => ?_⟩,
    h.vote, fun entry hentry => ?_, h.term⟩
  · rcases hentries entry hentry with hentry | hentry
    · exact h.wellFormed.entries entry hentry
    · have hterm : (Raft.mergeLog args node).persistent.currentTerm = args.term := hacc.term
      rw [hterm]
      exact hval entry hentry
  · rcases hentries entry hentry with hentry | hentry
    · exact h.commands entry hentry
    · exact hutf8 entry hentry

/-- Harmless inputs keep a state sound and the node healthy. -/
theorem Sound.change (hharmless : Harmless scope) (hid : SavableId cfg) (hup : node.healthy = true)
    (hterm : scope.before.currentTerm ≤ node.currentTerm) (hchange : Change cfg scope node node') :
    Sound node' ∧ node'.healthy = true ∧ scope.before.currentTerm ≤ node'.currentTerm := by
  cases hchange with
  | note hpers hsame hst =>
    obtain ⟨hsameTerm, _⟩ := RaftPersistentState.mk.inj hpers
    refine ⟨h.congr hpers fun hrole => ?_, hsame.trans hup, by rwa [hsameTerm]⟩
    rw [hsameTerm]
    exact h.term (hst ▸ hrole)
  | unhealthy reason hfails => simp [hharmless.fails] at hfails
  | later hpre _ hlt => exact ⟨h.asFollower hlt.le, hup, hterm.trans hlt.le⟩
  | follower hpre _ _ _ _ hsame => exact ⟨h.asFollower hsame.le, hup, hterm.trans hsame.le⟩
  | candidate hpre _ helec =>
    have hlt := hharmless.elects helec
    rw [← hpre] at hlt
    refine ⟨h.asCandidate hid hlt, hup, hterm.trans ?_⟩
    show node.currentTerm ≤ wrap64 (node.currentTerm + 1)
    rw [wrap64, Nat.mod_eq_of_lt hlt]
    exact Nat.le_succ _
  | vote hsome hval _ hsame =>
    exact ⟨h.vote_for hval hsame (hharmless.request _ hsome hval (hsame ▸ hterm)), hup, hterm⟩
  | leader _ hst => exact ⟨h.congr rfl fun _ => h.term (by simp [hst]), hup, hterm⟩
  | lone =>
    have hle : node.currentTerm ≤ startTerm node ∧ 1 ≤ startTerm node := by
      unfold startTerm
      split <;> omega
    refine ⟨⟨{ h.wellFormed with
      votedFor := fun id hvote => ?_, entries := fun entry hentry => ?_ },
      h.vote, h.commands, fun _ => hle.2⟩, hup, hterm.trans hle.1⟩
    · exact ⟨(h.wellFormed.votedFor id hvote).1, Nat.one_le_iff_ne_zero.mp hle.2⟩
    · obtain ⟨hpos, hentryTerm, hsize⟩ := h.wellFormed.entries entry hentry
      exact ⟨hpos, Nat.le_trans hentryTerm hle.1, hsize⟩
  | backOff | recordMatch => exact ⟨h.congr rfl h.term, hup, hterm⟩
  | commit =>
    refine ⟨h.updateCommitIndexLocked, by rwa [updateCommitIndexLocked_healthy], ?_⟩
    fun_cases Raft.updateCommitIndexLocked cfg node <;> exact hterm
  | log hlog =>
    cases hlog with
    | push _ hsome _ hst hsize hlen =>
      exact ⟨h.pushCommand hst hsize hlen (hharmless.command _ hsome), hup, hterm⟩
    | truncate => exact ⟨h.truncateLog _, hup, hterm⟩
    | merge hsome hacc hprev =>
      obtain ⟨hutf8, hkeeps⟩ := hharmless.message _ hsome
      refine ⟨h.mergeLog hacc hutf8 (hkeeps ?_), hup, hterm⟩
      have hidx := hacc.prevLogIndex
      rw [hacc.log] at hprev hidx
      simp only [acceptsEntries, hharmless.healthy, hacc.valid, Bool.true_and,
        Bool.and_eq_true, Bool.or_eq_true, decide_eq_true_eq]
      refine ⟨⟨hacc.later, hidx⟩, ?_⟩
      rcases Nat.eq_zero_or_pos _ with hzero | hpos
      · exact .inl hzero
      · exact .inr (hprev hpos)
    | applied _ hdeliv => simp [hharmless.delivers] at hdeliv

end

/-- A harmless section saves all it has to. -/
theorem Sound.hostSteps {host after : Host} (h : Sound host.node) (hlib : lib.Lawful)
    (hharmless : Harmless scope) (hid : SavableId cfg) (hpre : scope.before = host.node)
    (hio : host.io = []) (hsteps : HostSteps lib cfg scope host after)
    (hfits : ∀ state ∈ after.saves, Fits lib cfg state) :
    Sound after.node ∧ after.node.healthy = true ∧
      scope.before.currentTerm ≤ after.node.currentTerm ∧ after.io = [] := by
  induction hsteps with
  | refl => exact ⟨h, hpre ▸ hharmless.healthy, by rw [hpre], hio⟩
  | @tail mid after _ hstep ih =>
    cases hstep with
    | @write _ node ok hchange hsave =>
      obtain ⟨hsound, hup, hterm, hio⟩ := ih fun state hst => hfits state (saves_subset hsave hst)
      obtain ⟨hsound, hup, hterm⟩ := hsound.change hharmless hid hup hterm hchange
      have hwrite : Sound ({ mid with node } : Host).node := hsound
      obtain ⟨hnode, hio, _⟩ := hwrite.persist hlib hid hup hio hsave hfits
      rw [hnode]
      exact ⟨hsound, hup, hterm, hio⟩
    | set hchange =>
      obtain ⟨hsound, hup, hterm, hio⟩ := ih hfits
      obtain ⟨hsound, hup, hterm⟩ := hsound.change hharmless hid hup hterm hchange
      exact ⟨hsound, hup, hterm, hio⟩
    | takeBack hdeliv => simp [hharmless.delivers] at hdeliv

end Changes

/-! ## Calls -/

structure Running (p : Process) : Prop where
  sound : Sound p.host.node
  healthy : p.host.node.healthy = true
  pending : ∀ entry ∈ p.pipeline.pending, entry.1 ≤ p.host.node.commitIndex

section Calls

variable {lib : Libraries} {cfg : RaftConfig} {p : Process} {action : Action}
  {next : Process × List Output}

/-- The inputs of a call that meets the condition are harmless. -/
theorem Running.harmless (h : Running p) (hcall : Undisturbed action)
    (hbounds : boundsStep p action)
    (hreturn : ∀ verd, action ≠ .callbackReturned verd) : Harmless (p.scope action) where
  healthy := by rw [(p.scope_spec _).before]; exact h.healthy
  fails := by
    dsimp only [Process.scope]
    split
    case h_3 => cases hcall
    case h_4 => cases hcall
    case h_7 => exact absurd rfl (hreturn _)
    all_goals rfl
  delivers := p.scope_delivers hreturn
  elects := by
    intro helec
    by_cases hact : action = .startElection
    · subst hact
      exact hbounds
    · simp [p.scope_elects hact] at helec
  request := by
    intro args hsome
    by_cases hact : ∃ args, action = .requestVote args
    · obtain ⟨args', rfl⟩ := hact
      cases hsome
      exact hbounds
    · simp [p.scope_request fun args' hargs => hact ⟨args', hargs⟩] at hsome
  message := by
    intro args hsome
    obtain rfl := (p.scope_spec _).message hsome
    exact ⟨hcall, hbounds⟩
  command := by
    intro cmd hsome
    obtain rfl := (p.scope_spec _).command hsome
    exact hcall

variable {index : Nat}

section

variable (h : Running p) (hlib : lib.Lawful) (hid : SavableId cfg) (hio : p.host.io = [])

include h hlib hid hio

/-- An accepted callback moves the apply position. -/
theorem Running.markApplied {after : Host} {ok : Bool} (hidx : index ≤ p.host.node.commitIndex)
    (hmark : markApplied lib cfg index p.host = (after, ok))
    (hfits : ∀ state ∈ after.saves, Fits lib cfg state) :
    Sound after.node ∧ after.node.healthy = true ∧
      after.node.commitIndex = p.host.node.commitIndex := by
  unfold Raft.markApplied at hmark
  split at hmark
  · cases hmark
    exact ⟨h.sound, h.healthy, rfl⟩
  dsimp only at hmark
  have hsound : Sound ({ p.host.node with lastApplied := index } : RaftNode) :=
    { h.sound with wellFormed := { h.sound.wellFormed with applied := hidx } }
  generalize hsave : persistStateLocked lib cfg _ = result at hmark
  obtain ⟨saved, saveOk⟩ := result
  have hsaves : saved.saves = after.saves := by
    cases saveOk <;> obtain ⟨rfl, rfl⟩ := Prod.mk.inj hmark <;> rfl
  have hwrite : Sound
      ({ p.host with node := { p.host.node with lastApplied := index } } : Host).node := hsound
  obtain ⟨hnode, _, rfl⟩ := hwrite.persist hlib hid h.healthy hio hsave (hsaves ▸ hfits)
  cases hmark
  rw [hnode]
  exact ⟨hsound, h.healthy, rfl⟩

theorem Running.callbackDone {purpose : Purpose} {entry : LogEntry} {rest : List (Nat × LogEntry)}
    (hpipe : p.pipeline = .delivering purpose ((index, entry) :: rest) true)
    (hfits : ∀ state ∈ (p.callbackDone lib cfg purpose index rest .accepted).1.host.saves,
      Fits lib cfg state) :
    Sound (p.callbackDone lib cfg purpose index rest .accepted).1.host.node ∧
      (p.callbackDone lib cfg purpose index rest .accepted).1.host.node.healthy = true ∧
      (p.callbackDone lib cfg purpose index rest .accepted).1.host.node.commitIndex =
        p.host.node.commitIndex := by
  have hidx : index ≤ p.host.node.commitIndex := by
    refine h.pending (index, entry) ?_
    rw [hpipe]
    exact mem_cons_self
  unfold Process.callbackDone at hfits ⊢
  simp only [ite_self] at hfits ⊢
  cases purpose with
  | replay => exact ⟨h.sound, h.healthy, rfl⟩
  | _ =>
    generalize hmark : Raft.markApplied lib cfg index p.host = result at hfits ⊢
    obtain ⟨after, ok⟩ := result
    cases ok <;> exact h.markApplied hlib hid hio hidx hmark hfits

theorem Running.advance (hcall : Undisturbed action) (hbounds : boundsStep p action)
    (hadv : Process.Advances lib cfg p action next)
    (hfits : ∀ state ∈ next.1.host.saves, Fits lib cfg state) : Running next.1 := by
  have hboot : ∀ callback, action ≠ .boot callback := by
    rintro callback rfl
    exact hcall
  -- What is pending was pending before, when the commit index was no higher, or was drained now.
  have hpend (hcom : p.pipeline.pending = [] ∨
      p.host.node.commitIndex ≤ next.1.host.node.commitIndex) :
      ∀ entry ∈ next.1.pipeline.pending, entry.1 ≤ next.1.host.node.commitIndex := by
    intro entry hentry
    rcases pending_of_advances hadv hboot hentry with hpre | hnow
    · rcases hcom with hnone | hcom
      · simp [hnone] at hpre
      · exact (h.pending entry hpre).trans hcom
    · exact hnow.commitIndex
  by_cases hreturn : ∃ verdict, action = .callbackReturned verdict
  · obtain ⟨verdict, rfl⟩ := hreturn
    obtain rfl : verdict = .accepted := hcall
    cases hadv with
    | callbackReturned _ hpipe =>
      obtain ⟨hsound, hup, hcom⟩ := h.callbackDone hlib hid hio hpipe hfits
      exact ⟨hsound, hup, hpend (.inr hcom.ge)⟩
  have hharmless := h.harmless hcall hbounds fun verdict hverdict => hreturn ⟨verdict, hverdict⟩
  have hsteps := Process.hostSteps_of_advances hadv hboot
  obtain ⟨hsound, hup, _⟩ :=
    h.sound.hostSteps hlib hharmless hid (p.scope_spec action).before hio hsteps hfits
  refine ⟨hsound, hup, hpend ?_⟩
  by_cases hhold : (p.scope action).message = none ∧ (p.scope action).command = none
  · exact .inr (hsteps.log hhold.1 hhold.2).2
  · left
    cases hadv with
    | appendEntries args hpipe | appendCommand command hpipe => rw [hpipe]; rfl
    | _ => exact absurd ⟨p.scope_message (by simp), p.scope_command (by simp)⟩ hhold

end

theorem NodeRun.running {start : Process} (hrun : NodeRun lib cfg boundsStep start p)
    (hlib : lib.Lawful) (hid : SavableId cfg) (hstart : Running start) : Running p := by
  induction hrun with
  | refl => exact hstart
  | @step p next action outs _ hcall hbounds hstep hfits ih =>
    have hready : Running (p.withIo []) := ⟨ih.sound, ih.healthy, ih.pending⟩
    exact hready.advance hlib hid rfl hcall hbounds (Process.advances_of_advance hstep) hfits

/-- If all calls meet the condition, the node is healthy, its apply position and commit index are in
order, its entries have terms up to its own, and `validate_state` accepts its state. -/
theorem node_bounds {start : Process} (hlib : lib.Lawful) (hid : SavableId cfg)
    (hstart : Running start) (hrun : NodeRun lib cfg boundsStep start p) :
    p.host.node.lastApplied ≤ p.host.node.commitIndex ∧
      p.host.node.commitIndex ≤ p.host.node.log.length ∧
      (∀ entry ∈ p.host.node.log, 1 ≤ entry.term ∧ entry.term ≤ p.host.node.currentTerm) ∧
      validateState p.host.node.persistent defaultLimits (statePath cfg) = .ok () ∧
      p.host.node.healthy = true := by
  have hrunning := hrun.running hlib hid hstart
  have hwf := hrunning.sound.wellFormed
  refine ⟨hwf.applied, hwf.commit, fun entry hentry => ?_,
    validateState_ok_iff.mpr hwf, hrunning.healthy⟩
  obtain ⟨hpos, hle, _⟩ := hwf.entries entry hentry
  exact ⟨hpos, hle⟩

end Calls

/-! ## A follower -/

theorem running_new : Running {} where
  sound := ⟨⟨nofun, by decide, by decide, by decide, nofun⟩, nofun, nofun, by decide⟩
  healthy := rfl
  pending := nofun

theorem trio_savableId : SavableId (trio.node nodeA) := ⟨by decide, by decide⟩

/-- A follower votes, stores two entries and applies them. -/
def applyTwo : List Action := [.requestVote { term := 1, candidateId := nodeB }, .appendEntries
      { term := 1, leaderId := nodeB, leaderCommit := 2
        entries := [{ term := 1, command := ascii "x" }, { term := 1, command := ascii "y" }] },
    .callback, .callbackReturned .accepted, .callback, .callbackReturned .accepted, .finishDelivery]

def replaceFirst : Action := .appendEntries
    { term := 2, leaderId := nodeC, entries := [{ term := 2, command := ascii "z" }] }

theorem applyTwo_run : ∃ p, callAll reference (trio.node nodeA) boundsStep {} applyTwo = some p ∧
    p.host.node.lastApplied = 2 := by
  have hrun : (callAll reference (trio.node nodeA) boundsStep {} applyTwo).any
      (fun p => p.host.node.lastApplied = 2) = true := by decide +kernel
  simpa [Option.any_eq_true] using hrun

/-- The theorem at a follower that has applied two entries. -/
theorem node_bounds_applyTwo : ∃ p, NodeRun reference (trio.node nodeA) boundsStep {} p ∧
    p.host.node.lastApplied = 2 ∧ 2 ≤ p.host.node.log.length ∧ p.host.node.healthy = true := by
  obtain ⟨p, hcalls, happ⟩ := applyTwo_run
  have hrun := NodeRun.refl.callAll hcalls
  obtain ⟨hle, hcom, _, _, hup⟩ := node_bounds reference_lawful trio_savableId running_new hrun
  exact ⟨p, hrun, happ, happ ▸ hle.trans hcom, hup⟩

/-- A message that replaces an applied entry leaves the commit index beyond the log. -/
theorem node_bounds_replaceFirst : ∃ p, NodeRun reference (trio.node nodeA) (fun _ _ => True) {} p ∧
      p.host.node.log.length < p.host.node.commitIndex ∧ p.host.node.healthy = false := by
  have hrun : (callAll reference (trio.node nodeA) (fun _ _ => True) {}
      (applyTwo ++ [replaceFirst])).any (fun p =>
        p.host.node.log.length < p.host.node.commitIndex ∧ p.host.node.healthy = false) = true := by
    decide +kernel
  obtain ⟨p, hcalls, hcheck⟩ := (Option.any_eq_true _ _).mp hrun
  exact ⟨p, NodeRun.refl.callAll hcalls, of_decide_eq_true hcheck⟩

end BoostGateway.Raft
