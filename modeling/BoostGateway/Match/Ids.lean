import BoostGateway.Match.Cluster
import BoostGateway.Runs

/-!
# Match ids

The id of a match is the number that a counter of the process showed. A process uses a number once,
until the counter wraps around; another process, also one after a restart, uses the same numbers.
`match_ids_unique` is about the runs in which no two of them propose a match under one number.
-/

namespace BoostGateway.Match

open List Raft Protobuf MatchCluster ServiceCluster

/-! ## Names -/

def matchName (number : UInt64) : Bytes := ascii "match_" ++ decimal number.toNat

theorem matchName_injective : Function.Injective matchName := by
  intro a b h
  have hdecimal := append_cancel_left h
  rw [← UInt64.toNat_inj, ← Json.digitsValue_decimal a.toNat, hdecimal, Json.digitsValue_decimal]

theorem findMatch_matchId {order : QueueSort} {range : Int64} {mode : MatchMode}
    {anch : MatchPlayer} {number : UInt64} {queues : Queues} {result : MatchResult}
    (h : findMatch order range mode anch number queues = some result) :
    result.matchId = matchName number := by
  dsimp only [findMatch] at h
  split at h
  · cases h
  · exact (Option.some.inj h) ▸ rfl

/-! ## The property and the condition -/

namespace MatchCluster

/-- Matches with one id are one entry, no pending match is overwritten, and the gateway skips only
what it has started. -/
structure IdsUnique (setup : MatchSetup) (m : MatchCluster) (event : MatchEvent) : Prop where
  applied : ∀ index entry index' entry' result result',
    (m.step setup event).applied index entry → (m.step setup event).applied index' entry' →
    matchOf setup.lib setup.proto entry = some result →
    matchOf setup.lib setup.proto entry' = some result' → result.matchId = result'.matchId →
    index = index' ∧ entry = entry'
  pending : ∀ v id result, (m.service v).pendingMatches.lookup id = some result →
    ((m.step setup event).service v).life = (m.service v).life →
    ((m.step setup event).service v).pendingMatches.lookup id = some result
  gateway : ∀ index entry created result, event = .onMatchFound index entry created →
    m.applied index entry → matchOf setup.lib setup.proto entry = some result →
    result.matchId ∈ m.processedMatchIds → (index, entry) ∈ m.started

/-- No counter wraps, and no two processes share a number. -/
def distinctNumbers (m : MatchCluster) : MatchEvent → Bool
  | .look v _ _ => (m.service v).nextMatchId ≠ 0
  | .propose v _ _ =>
    match (m.service v).found with
    | none => true
    | some (number, _) =>
      m.proposals.all fun proposal =>
        proposal.number = number → proposal.node = v ∧ proposal.life = (m.service v).life
  | _ => true

end MatchCluster

/-! ## The invariant -/

section Invariant

variable (setup : MatchSetup)

def Proposed (proposals : List Proposal) (index : Nat) (entry : LogEntry) : Prop :=
  matchOf setup.lib setup.proto entry = none ∨
    ∃ proposal ∈ proposals, proposal.index = index ∧ proposal.entry = entry

def Drawn (s : MatchService) (number : UInt64) : Prop := number < s.nextMatchId ∨ s.nextMatchId = 0

/-- What is known of the service of a node. -/
structure ServiceInv (proposals : List Proposal) (history : List (NodeId × Output)) (v : NodeId)
    (s : MatchService) : Prop where
  life : ∀ proposal ∈ proposals, proposal.node = v → proposal.life ≤ s.life
  drawn : ∀ proposal ∈ proposals, proposal.node = v → proposal.life = s.life →
    Drawn s proposal.number
  found : ∀ number result, s.found = some (number, result) →
    result.matchId = matchName number ∧ Drawn s number ∧
      ∀ proposal ∈ proposals, proposal.node = v → proposal.life = s.life → proposal.number ≠ number
  pending : ∀ id result, s.pendingMatches.lookup id = some result →
    result.matchId = id ∧ ∃ index entry, (v, Output.applied index entry) ∈ history ∧
      matchOf setup.lib setup.proto entry = some result

/-- What every run with distinct numbers keeps. -/
structure IdsInv (m : MatchCluster) : Prop where
  traced : ClusterTraced (Proposed setup m.proposals) m.nodes.raft
  named : ∀ proposal ∈ m.proposals, ∀ result,
    matchOf setup.lib setup.proto proposal.entry = some result →
    result.matchId = matchName proposal.number
  distinct : (m.proposals.map (·.number)).Nodup
  services : ∀ v, ServiceInv setup m.proposals m.nodes.raft.history v (m.service v)
  started : ∀ id ∈ m.processedMatchIds, ∃ index entry result, (index, entry) ∈ m.started ∧
    m.applied index entry ∧ matchOf setup.lib setup.proto entry = some result ∧
    result.matchId = id

end Invariant

section Steps

variable {setup : MatchSetup} {m : MatchCluster}
variable {index : Nat} {entry : LogEntry} {result : MatchResult} {proposals : List Proposal}
  {history : List (NodeId × Output)} {v : NodeId} {s : MatchService} {id : Bytes}
  {m' : MatchCluster} {event : MatchEvent}

theorem MatchCluster.applied_iff :
    m.applied index entry = true ↔ ∃ v, (v, Output.applied index entry) ∈ m.nodes.raft.history := by
  simp [applied]

theorem idsInv_initial : IdsInv setup {} where
  traced := .initial
  named := by simp
  distinct := by simp
  services v := ⟨by simp, by simp, nofun, nofun⟩
  started := by simp

/-! ## Steps of the nodes -/

theorem ServiceInv.mono {history' : List (NodeId × Output)}
    (h : ServiceInv setup proposals history v s) (hhist : history ⊆ history') :
    ServiceInv setup proposals history' v s where
  life := h.life
  drawn := h.drawn
  found := h.found
  pending id result hget := by
    obtain ⟨hid, index, entry, happ, hmatch⟩ := h.pending id result hget
    exact ⟨hid, index, entry, hhist happ, hmatch⟩

theorem ServiceInv.restart (h : ServiceInv setup proposals history v s) :
    ServiceInv setup proposals history v { life := s.life + 1 } where
  life proposal hmem hnode := (h.life proposal hmem hnode).trans (Nat.le_succ _)
  drawn proposal hmem hnode hlife := by
    have hle := h.life proposal hmem hnode
    dsimp only at hlife
    omega
  found := nofun
  pending := nofun

theorem applyRaftEntry_fields (lib : Libraries) (proto : Codec Proto.CommandEnvelope)
    (entry : LogEntry) (s : MatchService) :
    (applyRaftEntry lib proto entry s).1.life = s.life ∧
      (applyRaftEntry lib proto entry s).1.nextMatchId = s.nextMatchId ∧
      (applyRaftEntry lib proto entry s).1.found = s.found ∧
      (applyRaftEntry lib proto entry s).1.pendingMatches =
        match matchOf lib proto entry with
        | some result => s.pendingMatches.insert result.matchId result
        | none => s.pendingMatches := by
  unfold applyRaftEntry matchOf
  cases entryOp lib proto entry with
  | error => exact ⟨rfl, rfl, rfl, rfl⟩
  | ok op => cases op <;> exact ⟨rfl, rfl, rfl, rfl⟩

theorem lookup_applyRaftEntry {lib : Libraries} {proto : Codec Proto.CommandEnvelope}
    (h : (applyRaftEntry lib proto entry s).1.pendingMatches.lookup id = some result) :
    matchOf lib proto entry = some result ∧ result.matchId = id ∨
      s.pendingMatches.lookup id = some result := by
  rw [(applyRaftEntry_fields lib proto entry s).2.2.2] at h
  cases hmatch : matchOf lib proto entry with
  | none =>
    rw [hmatch] at h
    exact .inr h
  | some found =>
    rw [hmatch] at h
    by_cases hid : id = found.matchId
    · subst hid
      rw [AList.lookup_insert] at h
      cases h
      exact .inl ⟨rfl, rfl⟩
    · rw [AList.lookup_insert_ne hid] at h
      exact .inr h

theorem ServiceInv.apply (h : ServiceInv setup proposals history v s)
    (happ : (v, Output.applied index entry) ∈ history) :
    ServiceInv setup proposals history v (applyRaftEntry setup.lib setup.proto entry s).1 := by
  obtain ⟨hlife, hcounter, hfind, _⟩ := applyRaftEntry_fields setup.lib setup.proto entry s
  refine ⟨?_, ?_, ?_, fun id result hget => ?_⟩
  · simpa only [hlife] using h.life
  · simpa only [Drawn, hlife, hcounter] using h.drawn
  · simpa only [Drawn, hlife, hcounter, hfind] using h.found
  · rcases lookup_applyRaftEntry hget with ⟨hmatch, hid⟩ | hold
    · exact ⟨hid, index, entry, happ, hmatch⟩
    · exact h.pending id result hold

variable {nodes : ServiceCluster MatchService} {format : RaftWireFormat} {io : List IoOutcome}
  {number : UInt64} {proposal : Proposal}

theorem drawn_next (hcounter : s.nextMatchId ≠ 0) (h : Drawn s number ∨ number = s.nextMatchId)
    {found : Option (UInt64 × MatchResult)} :
    Drawn { s with nextMatchId := s.nextMatchId + 1, found } number := by
  unfold Drawn at h ⊢
  have hle : number.toNat ≤ s.nextMatchId.toNat := by
    rcases h with (hlt | hzero) | rfl
    · exact (UInt64.lt_iff_toNat_lt.mp hlt).le
    · exact absurd hzero hcounter
    · exact le_rfl
  by_cases hwrap : s.nextMatchId.toNat + 1 < 2 ^ 64
  · rw [UInt64.lt_iff_toNat_lt, UInt64.toNat_add, UInt64.toNat_one, Nat.mod_eq_of_lt hwrap]
    omega
  · have := s.nextMatchId.toNat_lt
    rw [← UInt64.toNat_inj, UInt64.toNat_add, UInt64.toNat_one, UInt64.toNat_zero]
    omega

theorem ServiceInv.other (h : ServiceInv setup proposals history v s) (hother : proposal.node ≠ v) :
    ServiceInv setup (proposals ++ [proposal]) history v s := by
  have hold : ∀ earlier ∈ proposals ++ [proposal], earlier.node = v → earlier ∈ proposals := by
    intro earlier hmem hnode
    rcases mem_append.mp hmem with hmem | hnew
    · exact hmem
    · rw [mem_singleton.mp hnew] at hnode
      exact absurd hnode hother
  refine ⟨fun earlier hmem hnode => h.life earlier (hold _ hmem hnode) hnode,
    fun earlier hmem hnode => h.drawn earlier (hold _ hmem hnode) hnode, ?_, h.pending⟩
  intro number result hfind
  obtain ⟨hname, hdrawn, hnums⟩ := h.found number result hfind
  exact ⟨hname, hdrawn, fun earlier hmem hnode => hnums earlier (hold _ hmem hnode) hnode⟩

theorem ServiceInv.propose (h : ServiceInv setup proposals history proposal.node s)
    (hlife : proposal.life = s.life) (hfind : s.found = some (proposal.number, result)) :
    ServiceInv setup (proposals ++ [proposal]) history proposal.node { s with found := none } where
  life earlier hmem hnode := by
    rcases mem_append.mp hmem with hmem | hnew
    · exact h.life earlier hmem hnode
    · rw [mem_singleton.mp hnew]
      exact hlife.le
  drawn earlier hmem hnode hsame := by
    rcases mem_append.mp hmem with hmem | hnew
    · exact h.drawn earlier hmem hnode hsame
    · rw [mem_singleton.mp hnew]
      exact (h.found _ _ hfind).2.1
  found := nofun
  pending := h.pending

/-- A process that goes on keeps its pending matches, or applies an entry. -/
def Carries (setup : MatchSetup) (m m' : MatchCluster) (v : NodeId) (s : MatchService) : Prop :=
  ServiceInv setup m'.proposals m'.nodes.raft.history v s ∧
    (s.life = (m.service v).life → s.pendingMatches = (m.service v).pendingMatches ∨
      m.nodes.raft.history ⊆ m'.nodes.raft.history ∧ ∃ index entry,
        (v, Output.applied index entry) ∈ m'.nodes.raft.history ∧
        s = (applyRaftEntry setup.lib setup.proto entry (m.service v)).1)

def Keeps (setup : MatchSetup) (m m' : MatchCluster) : Prop :=
  IdsInv setup m' ∧ ∀ v, Carries setup m m' v (m'.service v)

variable (h : IdsInv setup m)

include h

theorem IdsInv.unique {index' : Nat} {entry' : LogEntry} {result' : MatchResult}
    (happ : m.applied index entry) (happ' : m.applied index' entry')
    (hmatch : matchOf setup.lib setup.proto entry = some result)
    (hmatch' : matchOf setup.lib setup.proto entry' = some result')
    (hid : result.matchId = result'.matchId) : index = index' ∧ entry = entry' := by
  have hproposed : ∀ {index entry result}, m.applied index entry →
      matchOf setup.lib setup.proto entry = some result →
      ∃ proposal ∈ m.proposals, proposal.index = index ∧ proposal.entry = entry := by
    intro index entry result happ hmatch
    obtain ⟨v, hv⟩ := applied_iff.mp happ
    rcases h.traced.history v _ hv with hnone | hproposed
    · rw [hmatch] at hnone
      cases hnone
    · exact hproposed
  obtain ⟨proposal, hmem, rfl, rfl⟩ := hproposed happ hmatch
  obtain ⟨proposal', hmem', rfl, rfl⟩ := hproposed happ' hmatch'
  have hnum : proposal.number = proposal'.number := by
    apply matchName_injective
    rw [← h.named proposal hmem result hmatch, ← h.named proposal' hmem' result' hmatch', hid]
  obtain rfl := inj_on_of_nodup_map h.distinct hmem hmem' hnum
  exact ⟨rfl, rfl⟩

theorem IdsInv.refl : Keeps setup m m := ⟨h, fun v => ⟨h.services v, fun _ => .inl rfl⟩⟩

theorem IdsInv.started_of_subset (hhist : m.nodes.raft.history ⊆ m'.nodes.raft.history)
    (hid : id ∈ m.processedMatchIds) :
    ∃ index entry result, (index, entry) ∈ m.started ∧
      m'.applied index entry ∧ matchOf setup.lib setup.proto entry = some result ∧
      result.matchId = id := by
  obtain ⟨index, entry, result, hstarted, happ, hmatch, hname⟩ := h.started id hid
  refine ⟨index, entry, result, hstarted, ?_, hmatch, hname⟩
  obtain ⟨v, hv⟩ := applied_iff.mp happ
  exact applied_iff.mpr ⟨v, hhist hv⟩

theorem IdsInv.of_nodes (htraced : ClusterTraced (Proposed setup m.proposals) nodes.raft)
    (hhist : m.nodes.raft.history ⊆ nodes.raft.history)
    (hservices : ∀ v, Carries setup m { m with nodes } v (nodes.services v)) :
    Keeps setup m { m with nodes } :=
  ⟨⟨htraced, h.named, h.distinct, fun v => (hservices v).1,
    fun _ hid => h.started_of_subset hhist hid⟩, hservices⟩

theorem IdsInv.served (hhist : m.nodes.raft.history ⊆ nodes.raft.history)
    (hserved : Served (machine setup.lib setup.proto) v m.nodes nodes) :
    ∀ u, Carries setup m { m with nodes } u (nodes.services u) := by
  have hold (u : NodeId) : Carries setup m { m with nodes } u (m.nodes.services u) :=
    ⟨(h.services u).mono hhist, fun _ => .inl rfl⟩
  have hupdate {svc : MatchService} (hv : Carries setup m { m with nodes } v svc) :
      ∀ u, Carries setup m { m with nodes } u (Function.update m.nodes.services v svc u) :=
    (Function.forall_update_iff _ _).mpr ⟨hv, fun u _ => hold u⟩
  cases hserved with
  | same _ hsilent hservices =>
    rw [hservices]
    exact hold
  | restarted hbooted hservices =>
    rw [hservices]
    exact hupdate ⟨(hold v).1.restart, fun hlife => absurd hlife (Nat.succ_ne_self _)⟩
  | applied index entry happ hservices =>
    have hmem := mem_history_of_newOutputs (happ ▸ mem_singleton_self _)
    rw [hservices]
    exact hupdate ⟨(hold v).1.apply hmem, fun _ => .inr ⟨hhist, index, entry, hmem, rfl⟩⟩

theorem IdsInv.setService {svc : MatchService}
    (hservice : ServiceInv setup m.proposals m.nodes.raft.history v svc)
    (hpend : svc.pendingMatches = (m.service v).pendingMatches) :
    Keeps setup m { m with nodes := m.nodes.setService v svc } := by
  refine h.of_nodes h.traced (List.Subset.refl _) ?_
  exact (Function.forall_update_iff _ _).mpr
    ⟨⟨hservice, fun _ => .inl hpend⟩, fun u _ => h.refl.2 u⟩

theorem IdsInv.look (hcounter : (m.service v).nextMatchId ≠ 0)
    (hname : result.matchId = matchName (m.service v).nextMatchId) :
    Keeps setup m { m with nodes := m.nodes.setService v { m.service v with
      nextMatchId := (m.service v).nextMatchId + 1
      found := some ((m.service v).nextMatchId, result) } } := by
  have hv := h.services v
  refine h.setService ⟨hv.life, ?_, ?_, hv.pending⟩ rfl
  · exact fun proposal hmem hnode hlife =>
      drawn_next hcounter (.inl (hv.drawn proposal hmem hnode hlife))
  · rintro number result' hsome
    obtain ⟨rfl, rfl⟩ := Prod.mk.inj (Option.some.inj hsome)
    refine ⟨hname, drawn_next hcounter (.inr rfl), fun proposal hmem hnode hlife heq => ?_⟩
    -- what the process has proposed lies below its counter
    rcases hv.drawn proposal hmem hnode hlife with hlt | hzero
    · rw [heq] at hlt
      exact absurd hlt (UInt64.lt_irrefl _)
    · exact hcounter hzero

theorem IdsInv.fresh (hfind : (m.service v).found = some (number, result))
    (hnums : m.distinctNumbers (.propose v format io) = true) :
    number ∉ m.proposals.map (·.number) := by
  intro hmem
  obtain ⟨proposal, hproposal, hnum⟩ := mem_map.mp hmem
  dsimp only [distinctNumbers] at hnums
  rw [hfind] at hnums
  have hown := of_decide_eq_true (all_eq_true.mp hnums proposal hproposal) hnum
  exact ((h.services v).found number result hfind).2.2 proposal hproposal hown.1 hown.2 hnum

theorem IdsInv.kept (h' : IdsInv setup m') (hhist : m.nodes.raft.history ⊆ m'.nodes.raft.history)
    (happ : (v, Output.applied index entry) ∈ m'.nodes.raft.history)
    (hget : (m.service v).pendingMatches.lookup id = some result) :
    (applyRaftEntry setup.lib setup.proto entry (m.service v)).1.pendingMatches.lookup id =
      some result := by
  rw [(applyRaftEntry_fields _ _ entry (m.service v)).2.2.2]
  cases hmatch : matchOf setup.lib setup.proto entry with
  | none => exact hget
  | some found =>
    by_cases hid : id = found.matchId
    · obtain ⟨hname, index', entry', happ', hmatch'⟩ := (h.services v).pending id result hget
      obtain ⟨_, rfl⟩ := h'.unique (applied_iff.mpr ⟨v, happ⟩)
        (applied_iff.mpr ⟨v, hhist happ'⟩) hmatch hmatch'
        (hid.symm.trans hname.symm)
      cases hmatch.symm.trans hmatch'
      rw [hid, AList.lookup_insert]
    · rwa [AList.lookup_insert_ne hid]

/-! ## Steps of the cluster -/

variable (hlib : setup.lib.Lawful) (htext : setup.lib.WritesText)
  (hproto : setup.proto.Lawful Proto.CommandEnvelope.strings)

include hlib htext hproto

/-- A command other than a match is handed to `append_command`. -/
theorem IdsInv.submit {command : RaftCommand}
    (hop : ∀ result, queueOp command ≠ .ok (.commit result)) :
    Keeps setup m ((m.submit setup v command format io).getD m) := by
  fun_cases MatchCluster.submit setup m v command format io with
  | case1 => exact h.refl
  | case2 bytes hbytes =>
    cases hnodes : m.nodes.append setup.lib setup.cluster v bytes io with
    | none => exact h.refl
    | some =>
      obtain ⟨hstep, _, hservices, _⟩ := appends_of_append hnodes
      refine h.of_nodes (h.traced.step (fun _ _ hknown => hknown) ?_ hstep) (history_subset hstep)
        fun u => ?_
      · intro other hother _
        obtain rfl := Action.appendCommand.inj hother
        refine .inl (Option.eq_none_iff_forall_ne_some.mpr fun result hmatch => hop result ?_)
        exact entryOp_serialized hlib htext hproto hbytes (matchOf_eq_some_iff.mp hmatch)
      · rw [hservices]
        exact ⟨(h.services u).mono (history_subset hstep), fun _ => .inl rfl⟩

theorem IdsInv.keeps (hnums : m.distinctNumbers event = true) :
    Keeps setup m (m.step setup event) := by
  unfold MatchCluster.step
  fun_cases advance setup m event with
  | case1 event =>
    cases hnodes : m.nodes.step setup.lib setup.cluster (machine setup.lib setup.proto) event with
    | none => exact h.refl
    | some =>
      obtain ⟨hraft, hcmd, _, _, hserved⟩ := steps_of_step hnodes
      refine h.of_nodes (h.traced.step (fun _ _ hknown => hknown) ?_ hraft) (history_subset hraft)
        (h.served (history_subset hraft) hserved)
      exact fun command hact => absurd hact (hcmd command)
  | case2 v req =>
    refine h.submit hlib htext hproto fun result => ?_
    rw [queueOp_raftCommand]
    cases req <;> simp [MatchRequest.operation]
  | case4 =>
    refine h.submit hlib htext hproto fun result => ?_
    simp [queueOp_makePurgeCommand]
  | case6 v mode anch s result hfind =>
    exact h.look (of_decide_eq_true hnums) (findMatch_matchId hfind)
  | case9 v =>
    have hv := h.services v
    exact h.setService ⟨hv.life, hv.drawn, by simp, hv.pending⟩ rfl
  | case12 v format io number result hfind hlead bytes hbytes node =>
    cases hnodes : m.nodes.append setup.lib setup.cluster v bytes io with
    | none => exact h.refl
    | some nodes =>
      obtain ⟨hraft, _, hservices, _⟩ := appends_of_append hnodes
      have hhist := history_subset hraft
      set proposal : Proposal := {
        node := v
        life := (m.service v).life
        number
        index := node.log.length + 1
        entry := { term := node.currentTerm, command := bytes } }
      have hcarries : ∀ u, Carries setup m { m with
          nodes := nodes.setService v { m.service v with found := none }
          proposals := m.proposals ++ [proposal] } u
          (Function.update nodes.services v { m.service v with found := none } u) := by
        refine (Function.forall_update_iff _ _).mpr ⟨⟨?_, fun _ => .inl rfl⟩, fun u hu => ?_⟩
        · exact ((h.services v).mono hhist).propose rfl hfind
        · rw [hservices]
          exact ⟨((h.services u).mono hhist).other hu.symm, fun _ => .inl rfl⟩
      refine ⟨⟨?_, ?_, ?_, fun u => (hcarries u).1, ?_⟩, hcarries⟩
      · refine h.traced.step (fun index entry hknown => hknown.imp_right ?_) ?_ hraft
        · rintro ⟨earlier, hmem, heq⟩
          exact ⟨earlier, mem_append_left _ hmem, heq⟩
        · intro command hact _
          obtain rfl := Action.appendCommand.inj hact
          exact .inr ⟨proposal, mem_append_right _ (mem_singleton_self _), rfl, rfl⟩
      · refine forall_mem_append.mpr ⟨h.named, forall_mem_singleton.mpr ?_⟩
        intro found hmatch
        have hread := entryOp_serialized hlib htext hproto hbytes (matchOf_eq_some_iff.mp hmatch)
        cases hread.symm.trans (queueOp_makeMatchFoundCommand result)
        exact ((h.services v).found number result hfind).1
      · rw [Option.map_some, Option.getD_some, map_append, map_singleton, ← concat_eq_append]
        exact h.distinct.concat (h.fresh hfind hnums)
      · exact fun _ hid => h.started_of_subset hhist hid
  | case16 index entry created result hmatch happ hnew =>
    refine ⟨⟨h.traced, h.named, h.distinct, h.services, fun id hid => ?_⟩, h.refl.2⟩
    have hnew : id ∈ m.processedMatchIds ∨ id = result.matchId := by
      split at hid
      · exact (mem_append.mp hid).imp_right mem_singleton.mp
      · exact .inl hid
    rcases hnew with hold | rfl
    · obtain ⟨index', entry', result', hstarted, hrest⟩ := h.started id hold
      exact ⟨index', entry', result', mem_append_left _ hstarted, hrest⟩
    · exact ⟨index, entry, result, mem_append_right _ (mem_singleton_self _), happ, hmatch, rfl⟩
  | _ => exact h.refl

theorem IdsInv.step (hnums : m.distinctNumbers event = true) :
    IdsInv setup (m.step setup event) ∧ m.IdsUnique setup event := by
  obtain ⟨hnext, hcarries⟩ := h.keeps hlib htext hproto hnums
  refine ⟨hnext, ?_, ?_, ?_⟩
  · exact fun index entry index' entry' result result' happ happ' hmatch hmatch' hid =>
      hnext.unique happ happ' hmatch hmatch' hid
  · intro v id result hget hlife
    rcases (hcarries v).2 hlife with hsame | ⟨hhist, _, entry, happ, heq⟩
    · rwa [hsame]
    · rw [heq]
      exact h.kept hnext hhist happ hget
  · rintro index entry created result rfl happ hmatch hproc
    obtain ⟨index', entry', result', hstarted, happ', hmatch', hname⟩ := h.started _ hproc
    obtain ⟨rfl, rfl⟩ := h.unique happ happ' hmatch hmatch' hname.symm
    exact hstarted

end Steps

/-- If no counter wraps around and no two processes propose matches under one number, applied
matches with one id are one entry of the log, no pending match is overwritten by another one, and
the gateway skips only matches that it has started. -/
theorem match_ids_unique (setup : MatchSetup) (hlib : setup.lib.Lawful)
    (htext : setup.lib.WritesText) (hproto : setup.proto.Lawful Proto.CommandEnvelope.strings)
    (events : List MatchEvent)
    (hnumbers : Along (MatchCluster.step setup) (fun m event => m.distinctNumbers event = true) {}
      events) : Along (MatchCluster.step setup) (IdsUnique setup) {} events :=
  hnumbers.of_invariant (fun _ _ h hevent => h.step hlib htext hproto hevent) idsInv_initial

/-! ## A process that starts again -/

def lone : MatchSetup := matchOn oneNode

def matchPair (first second : String) : List MatchEvent :=
  .request nodeA (.join { userId := ascii first }) .legacyJson [] :: soloAppended.map .node ++
    .request nodeA (.join { userId := ascii second }) .legacyJson [] :: soloAppended.map .node ++
    [.look nodeA .oneVsOne { userId := ascii first }, .propose nodeA .legacyJson []] ++
    soloAppended.map .node

/-- The matches that were applied, with their index and id. -/
def MatchCluster.appliedIds (setup : MatchSetup) (m : MatchCluster) : List (Nat × Bytes) :=
  m.nodes.raft.history.filterMap fun record =>
    match record.2 with
    | .applied index entry =>
      (matchOf setup.lib setup.proto entry).map fun result => (index, result.matchId)
    | _ => none

theorem MatchCluster.exists_of_mem_appliedIds {setup : MatchSetup} {m : MatchCluster} {index : Nat}
    {id : Bytes} (h : (index, id) ∈ m.appliedIds setup) : ∃ entry result,
      m.applied index entry ∧ matchOf setup.lib setup.proto entry = some result ∧
      result.matchId = id := by
  obtain ⟨⟨v, output⟩, hmem, hrec⟩ := mem_filterMap.mp h
  cases output with
  | applied at_ entry =>
    obtain ⟨result, hmatch, heq⟩ := Option.map_eq_some_iff.mp hrec
    cases heq
    exact ⟨entry, result, applied_iff.mpr ⟨v, hmem⟩, hmatch, rfl⟩
  | _ => cases hrec

def matchOnce : List MatchEvent := (soloUp 0).map .node ++ matchPair "ann" "bob"

def matchTwice : List MatchEvent := matchOnce ++ matchPair "cat" "dan"

/-- The theorem at a run in which a process matches two pairs. -/
theorem match_ids_unique_pairs :
    (matchTwice.foldl (MatchCluster.step lone) {}).appliedIds lone =
        [(3, ascii "match_1"), (6, ascii "match_2")] ∧
      Along (MatchCluster.step lone) (IdsUnique lone) {} matchTwice := by
  refine ⟨by rw [lone, step_matchOn]; decide +kernel, ?_⟩
  refine match_ids_unique lone reference_lawful reference_writesText Proto.commandReference_lawful
    _ ?_
  rw [lone, step_matchOn]
  decide +kernel

def matchAgain : List MatchEvent := matchOnce ++ (soloUp 3).map .node ++ matchPair "cat" "dan"

/-- Both matches have the same id. -/
theorem restarted_process_reuses_id :
    ¬ Along (MatchCluster.step lone) (IdsUnique lone) {} matchAgain := by
  have hids : ((matchAgain.dropLast.foldl (MatchCluster.step lone) {}).step lone
      (.node (on nodeA (.sendHeartbeat .pipeline)))).appliedIds lone =
        [(3, ascii "match_1"), (3, ascii "match_1"), (6, ascii "match_1")] := by
    rw [lone, step_matchOn]
    decide +kernel
  intro h
  have hunique := (h matchAgain.dropLast (.node (on nodeA (.sendHeartbeat .pipeline))) []
    rfl).applied
  obtain ⟨entry, result, happ, hmatch, hid⟩ := exists_of_mem_appliedIds (hids ▸ mem_cons_self)
  obtain ⟨entry', result', happ', hmatch', hid'⟩ :=
    exists_of_mem_appliedIds (hids ▸ mem_cons_of_mem _ (mem_cons_of_mem _ (mem_singleton_self _)))
  have hsame := (hunique _ _ _ _ _ _ happ happ' hmatch hmatch' (hid.trans hid'.symm)).1
  exact absurd hsame (by decide)

end BoostGateway.Match
