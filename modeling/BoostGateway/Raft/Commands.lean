import BoostGateway.Raft.Bounds
import BoostGateway.Raft.CommandRoundTrip
import BoostGateway.Raft.StoreRuns

/-!
# Commands that a leader can keep

A healthy leader has saved its state (`Backed`), so whether `append_command` can save the log with
one more command depends on that command and on the room in the state file only.
-/

namespace BoostGateway.Raft

open Durable Program

/-! ## Roles and saves -/

/-- The file, and a healthy node but a new follower, can be written. -/
structure Backed (lib : Libraries) (cfg : RaftConfig) (host : Host) : Prop where
  disk : ∀ state, host.disk = some state → Savable lib cfg state
  saved : host.node.healthy = true → Savable lib cfg host.node.persistent ∨
    host.node.persistent = {} ∧ host.node.state = .follower
  term : host.node.healthy = true → host.node.state ≠ .follower → 1 ≤ host.node.currentTerm

section Roles

variable {lib : Libraries} {cfg : RaftConfig} {scope : Scope} {node node' : RaftNode}
  {host after : Host}

/-- How a node gets another role than a follower's. -/
theorem Change.role (h : Change cfg scope node node') (hup : node'.healthy = true) :
    node'.state = .follower ∨ (node'.state = node.state ∧ node'.currentTerm = node.currentTerm) ∨
      node' = asCandidate cfg node ∨
      (node.state = .candidate ∧ node' = asLeader cfg node) ∨
      node' = asLeader cfg { node with currentTerm := startTerm node } := by
  cases h with
  | note hpers _ hst => exact .inr (.inl ⟨hst, congrArg RaftPersistentState.currentTerm hpers⟩)
  | unhealthy =>
    rw [markUnhealthyLocked_healthy] at hup
    cases hup
  | later | follower => exact .inl rfl
  | candidate => exact .inr (.inr (.inl rfl))
  | leader _ hcand => exact .inr (.inr (.inr (.inl ⟨hcand, rfl⟩)))
  | lone => exact .inr (.inr (.inr (.inr rfl)))
  | commit =>
    fun_cases updateCommitIndexLocked cfg node <;> exact .inr (.inl ⟨rfl, rfl⟩)
  | log hlog => cases hlog <;> exact .inr (.inl ⟨rfl, rfl⟩)
  | _ => exact .inr (.inl ⟨rfl, rfl⟩)

theorem one_le_startTerm (node : RaftNode) : 1 ≤ startTerm node := by
  unfold startTerm
  split <;> omega

theorem Backed.term_of_change (h : Backed lib cfg host) (hchange : Change cfg scope host.node node)
    (hup : node.healthy = true) (hcand : node = asCandidate cfg host.node → 1 ≤ node.currentTerm)
    (hst : node.state ≠ .follower) : 1 ≤ node.currentTerm := by
  have hpre := hchange.healthy_before hup
  rcases hchange.role hup with hfollower | ⟨hrole, hterm⟩ | hnew | ⟨hrole, rfl⟩ | rfl
  · exact absurd hfollower hst
  · exact hterm ▸ h.term hpre (hrole ▸ hst)
  · exact hcand hnew
  · exact h.term hpre (by simp [hrole])
  · exact one_le_startTerm host.node

theorem persistent_asCandidate_ne (node : RaftNode) :
    (asCandidate cfg node).persistent ≠ node.persistent := by
  intro hsame
  have hterm : wrap64 (node.currentTerm + 1) = node.currentTerm :=
    congrArg RaftPersistentState.currentTerm hsame
  unfold wrap64 at hterm
  omega

theorem Backed.of_unhealthy (hdisk : ∀ state, host.disk = some state → Savable lib cfg state)
    (hdown : host.node.healthy = false) : Backed lib cfg host where
  disk := hdisk
  saved hup := by simp [hdown] at hup
  term hup := by simp [hdown] at hup

theorem HostStep.backed (hstorage : cfg.storageDir ≠ []) (h : HostStep lib cfg scope host after)
    (hhost : Backed lib cfg host) : Backed lib cfg after := by
  cases h with
  | @write _ node ok hchange hsave =>
    cases hup : node.healthy with
    | false =>
      have hsame : persistStateLocked lib cfg { host with node } = ({ host with node }, false) := by
        simp [persistStateLocked, hup]
      obtain ⟨rfl, _⟩ := Prod.mk.inj (hsame.symm.trans hsave)
      exact .of_unhealthy hhost.disk hup
    | true =>
      have hcand (hsavable : Savable lib cfg node.persistent) :
          node = asCandidate cfg host.node → 1 ≤ node.currentTerm := by
        rintro rfl
        exact Nat.one_le_iff_ne_zero.mpr (hsavable.wellFormed.votedFor _ rfl).2
      cases persistStateLocked_persisted lib cfg hstorage hup hsave with
      | saved hnode hdisk hsavable =>
        refine ⟨fun state hst => ?_, fun _ => .inl (hnode ▸ hsavable), fun _ => ?_⟩
        · cases hdisk.symm.trans hst
          exact hsavable
        · rw [hnode]
          exact hhost.term_of_change hchange hup (hcand hsavable)
      | failed reason hnode hdisk =>
        have hdown : after.node.healthy = false := by rw [hnode, markUnhealthyLocked_healthy]
        refine .of_unhealthy (fun state hst => ?_) hdown
        rcases hdisk with hdisk | ⟨hdisk, hsavable⟩
        · exact hhost.disk state (hdisk ▸ hst)
        · cases hdisk.symm.trans hst
          exact hsavable
  | @set node hchange hsame =>
    refine ⟨hhost.disk, fun hup => ?_, fun hup => ?_⟩
    · rcases hhost.saved (hchange.healthy_before hup) with hsavable | ⟨hempty, hfollower⟩
      · exact .inl (hsame ▸ hsavable)
      refine .inr ⟨hsame.trans hempty, ?_⟩
      have hzero : host.node.currentTerm = 0 := congrArg RaftPersistentState.currentTerm hempty
      rcases hchange.role hup with hrole | ⟨hrole, _⟩ | rfl | ⟨hrole, _⟩ | rfl
      · exact hrole
      · exact hrole.trans hfollower
      · exact absurd hsame (persistent_asCandidate_ne host.node)
      · cases hfollower.symm.trans hrole
      · have hterm : startTerm host.node = host.node.currentTerm :=
          congrArg RaftPersistentState.currentTerm hsame
        have hpos := one_le_startTerm host.node
        omega
    · refine hhost.term_of_change hchange hup ?_
      rintro rfl
      exact absurd hsame (persistent_asCandidate_ne host.node)
  | takeBack _ hdown => exact .of_unhealthy hhost.disk hdown

theorem HostSteps.backed (hstorage : cfg.storageDir ≠ []) (h : HostSteps lib cfg scope host after)
    (hhost : Backed lib cfg host) : Backed lib cfg after := by
  induction h with
  | refl => exact hhost
  | tail _ hstep ih => exact hstep.backed hstorage ih

end Roles

/-! ## Histories of one process -/

section Histories

variable (lib : Libraries) (cfg : RaftConfig)

/-- The states of a process with any inputs and writes. -/
inductive Reached : Process → Prop where
  | new : Reached {}
  | step {p next : Process} {action : Action} {io : List IoOutcome} {outputs : List Output} :
      Reached p → p.step lib cfg action io = some (next, outputs) → Reached next

variable {lib cfg}

theorem backed_boot {host : Host} (cb : Bool) (h : Backed lib cfg host) :
    Backed lib cfg (Process.boot cb host).host := by
  refine ⟨h.disk, fun _ => ?_, fun _ hst => ?_⟩
  · cases hdisk : host.disk with
    | none => exact .inr (by simp [Process.boot, load, hdisk, RaftNode.persistent])
    | some state =>
      refine .inl ?_
      simpa [Process.boot, load, hdisk, RaftNode.persistent] using h.disk state hdisk
  · refine absurd ?_ hst
    cases hdisk : host.disk <;> simp [Process.boot, load, hdisk]

theorem Reached.backed (hstorage : cfg.storageDir ≠ []) {p : Process} (h : Reached lib cfg p) :
    Backed lib cfg p.host := by
  induction h with
  | new => exact ⟨nofun, fun _ => .inr ⟨rfl, rfl⟩, fun _ hst => absurd rfl hst⟩
  | @step p next act io outs _ hstep ih =>
    have hready : Backed lib cfg (p.withIo io).host := ⟨ih.disk, ih.saved, ih.term⟩
    have hadv := Process.advances_of_advance hstep
    by_cases hboot : ∃ cb, act = .boot cb
    · obtain ⟨cb, rfl⟩ := hboot
      cases hadv
      exact backed_boot cb hready
    · have hsteps := Process.hostSteps_of_advances hadv fun cb heq => hboot ⟨cb, heq⟩
      exact hsteps.backed hstorage hready

end Histories

/-! ## Appending a command -/

section Appending

variable {lib : Libraries} {cfg : RaftConfig} {state : RaftPersistentState} {node : RaftNode}
  {command : Bytes}

theorem Savable.stateText (hlib : lib.Lawful) (h : Savable lib cfg state) :
    SavableId cfg ∧ state.utf8 = true := by
  obtain ⟨bytes, hbytes⟩ := h
  obtain ⟨_, hid, henc⟩ := bind_ok_iff.mp hbytes
  obtain ⟨_, htext, _⟩ := (encodeV1_ok_iff hlib).mp henc
  obtain ⟨hutf8, hst⟩ := (exists_stateText_iff hlib).mp ⟨bytes, htext⟩
  exact ⟨⟨hid, hutf8⟩, hst⟩

theorem not_savable_of_not_fits (hlib : lib.Lawful) (h : ¬ Fits lib cfg state) :
    ¬ Savable lib cfg state := by
  rintro ⟨bytes, hbytes⟩
  obtain ⟨_, _, henc⟩ := bind_ok_iff.mp hbytes
  obtain ⟨_, htext, hlen⟩ := (encodeV1_ok_iff hlib).mp henc
  refine h ?_
  simpa only [Fits, htext] using hlen

theorem Savable.sound (hlib : lib.Lawful) (h : Savable lib cfg node.persistent)
    (hterm : 1 ≤ node.currentTerm) : Sound node := by
  obtain ⟨hvote, hlog⟩ := Bool.and_eq_true_iff.mp (h.stateText hlib).2
  refine ⟨h.wellFormed, fun id hid => ?_, ?_, fun _ => hterm⟩
  · simpa [RaftNode.persistent, hid] using hvote
  · simpa [RaftNode.persistent] using hlog

/-- A saved state is loaded again, whatever calls led to the directory. -/
theorem load_saved (hlib : lib.Lawful) (hrange : state.InRange) (h : Savable lib cfg state)
    {store : RaftStateStore} {files : Directory} {strings : List Bytes}
    (hid : store.nodeId = cfg.nodeId) (hlimits : store.limits = defaultLimits)
    (hrun : StoreRun lib store files strings) :
    ∃ saved past, Leads (saveState lib store state) files () saved past ∧
      Leads (loadOrMigrate lib store) saved (some { state }) saved [] := by
  obtain ⟨bytes, hbytes⟩ := h
  obtain ⟨_, _, henc⟩ := bind_ok_iff.mp hbytes
  have hsaved : Saved lib store state bytes := by
    refine ⟨hrange, (encodeV1_ok_iff hlib).mpr ?_⟩
    rw [hid, hlimits]
    exact (encodeV1_ok_iff hlib).mp henc
  have hord := (hrun.orderly hlib).putState hlib (.inl hsaved)
  obtain ⟨_, hmigrations, _⟩ := hord.recorded .migration
  obtain ⟨_, hdowngrades, _⟩ := hord.recorded .downgrade
  have hinspect := hsaved.inspectForLoad hlib (AList.lookup_insert _) hmigrations hdowngrades
  exact ⟨_, _, compute_bind_leads_iff.mpr ⟨bytes, raised_ok_iff.mpr hsaved.encoded,
      put_leads_iff.mpr ⟨rfl, rfl⟩⟩, query_bind_leads_iff.mpr ⟨_, hinspect, pure_leads⟩⟩

/-- The node is healthy, and its log and its loaded state end in the command. -/
structure StoredCommand (lib : Libraries) (cfg : RaftConfig) (command : Bytes) (before : Host)
    (result : Host × Bool) : Prop where
  accepted : result.2 = true
  healthy : result.1.node.healthy = true
  log : result.1.node.log =
    before.node.log ++ [{ term := before.node.currentTerm, command }]
  disk : result.1.disk = some result.1.node.persistent
  loaded : ∀ store files strings, store.nodeId = cfg.nodeId → store.limits = defaultLimits →
    StoreRun lib store files strings →
    ∃ saved past, Leads (saveState lib store result.1.node.persistent) files () saved past ∧
      Leads (loadOrMigrate lib store) saved (some { state := result.1.node.persistent }) saved []

/-- The call fails, the node is out, and the file stays. -/
structure FailedClosed (before : Host) (result : Host × Bool) : Prop where
  refused : result.2 = false
  unhealthy : result.1.node.healthy = false
  disk : result.1.disk = before.disk

theorem persistStateLocked_of_savable {host : Host} (hstorage : cfg.storageDir ≠ [])
    (hup : host.node.healthy = true) (hio : host.io = [])
    (h : Savable lib cfg host.node.persistent) :
    persistStateLocked lib cfg host = ({ host with
      disk := some host.node.persistent
      saves := host.saves ++ [host.node.persistent] }, true) := by
  obtain ⟨bytes, henc⟩ := h
  simp [persistStateLocked, save, hup, hstorage, henc, hio]

theorem persistStateLocked_of_not_savable {host : Host} (hstorage : cfg.storageDir ≠ [])
    (hup : host.node.healthy = true) (h : ¬ Savable lib cfg host.node.persistent) :
    (persistStateLocked lib cfg host).2 = false ∧
      (persistStateLocked lib cfg host).1.node.healthy = false ∧
      (persistStateLocked lib cfg host).1.disk = host.disk := by
  cases henc : encodeSave lib cfg host.node.persistent with
  | ok bytes => exact absurd ⟨bytes, henc⟩ h
  | error => simp [persistStateLocked, save, hup, hstorage, henc]

variable {p : Process}

section Room

variable (hhealthy : p.host.node.healthy = true) (hleader : p.host.node.state = .leader)
  (hsize : command.length ≤ defaultLimits.maxCommandBytes)
  (hroom : p.host.node.log.length < defaultLimits.maxLogEntries)

include hhealthy hleader hsize hroom

theorem appendCommand_eq (lib : Libraries) (cfg : RaftConfig) :
    appendCommand lib cfg command (p.withIo []).host = persistStateLocked lib cfg
      { (p.withIo []).host with node := pushCommand cfg command p.host.node } := by
  refine if_neg ?_
  simp [Process.withIo, hhealthy, hleader, hsize, hroom]

variable (hlib : lib.Lawful) (hstorage : cfg.storageDir ≠ [])

include hlib hstorage

theorem Reached.sound_push (hreached : Reached lib cfg p) (hutf8 : utf8Valid command = true) :
    SavableId cfg ∧ Sound (pushCommand cfg command p.host.node) := by
  have hback := hreached.backed hstorage
  have hpositive := hback.term hhealthy (by simp [hleader])
  have hsavable : Savable lib cfg p.host.node.persistent := by
    rcases hback.saved hhealthy with hsavable | ⟨_, hfollower⟩
    · exact hsavable
    · cases hleader.symm.trans hfollower
  exact ⟨(hsavable.stateText hlib).1,
    (hsavable.sound hlib hpositive).pushCommand hleader hsize hroom hutf8⟩

theorem failedClosed_of_not_fits
    (hfits : ¬ Fits lib cfg (pushCommand cfg command p.host.node).persistent) :
    FailedClosed p.host (appendCommand lib cfg command (p.withIo []).host) := by
  have hnot := not_savable_of_not_fits hlib hfits
  let host : Host := { (p.withIo []).host with node := pushCommand cfg command p.host.node }
  have hhost : host.node.healthy = true := hhealthy
  obtain ⟨hrefused, hdown, hdisk⟩ := persistStateLocked_of_not_savable hstorage hhost hnot
  rw [appendCommand_eq hhealthy hleader hsize hroom]
  exact ⟨hrefused, hdown, hdisk⟩

end Room

/-- A healthy leader stores every command of UTF-8 that fits and stays healthy until a later state
does not fit; without room it fails closed. -/
theorem no_poison_command (hlib : lib.Lawful) (hstorage : cfg.storageDir ≠ [])
    (hreached : Reached lib cfg p) (hhealthy : p.host.node.healthy = true)
    (hleader : p.host.node.state = .leader) (hterm : p.host.node.currentTerm < 2 ^ 64)
    (hutf8 : utf8Valid command = true) (hsize : command.length ≤ defaultLimits.maxCommandBytes)
    (hroom : p.host.node.log.length < defaultLimits.maxLogEntries) :
    (Fits lib cfg (pushCommand cfg command p.host.node).persistent →
      StoredCommand lib cfg command p.host (appendCommand lib cfg command (p.withIo []).host) ∧
      ∀ next, NodeRun lib cfg boundsStep (Process.beginAppend lib cfg command (p.withIo [])) next →
        next.host.node.healthy = true) ∧
    (¬ Fits lib cfg (pushCommand cfg command p.host.node).persistent →
      FailedClosed p.host (appendCommand lib cfg command (p.withIo []).host)) := by
  obtain ⟨hid, hsound⟩ :=
    Reached.sound_push hhealthy hleader hsize hroom hlib hstorage hreached hutf8
  have happend := appendCommand_eq hhealthy hleader hsize hroom lib cfg
  constructor
  · intro hfits
    have hpush := hsound.savable hlib hid hfits
    have hsaved := happend.trans (persistStateLocked_of_savable hstorage hhealthy rfl hpush)
    have hrange : (pushCommand cfg command p.host.node).persistent.InRange := by
      have hval := hpush.wellFormed
      have hlog : defaultLimits.maxLogEntries < 2 ^ 64 := by decide
      refine ⟨hterm, ?_, ?_, fun entry hentry => ?_⟩
      · exact (hval.commit.trans hval.logSize).trans_lt hlog
      · exact (hval.applied.trans (hval.commit.trans hval.logSize)).trans_lt hlog
      · exact (hval.entries entry hentry).2.1.trans_lt hterm
    refine ⟨?_, fun next hrun => ?_⟩
    · rw [hsaved]
      exact ⟨rfl, hhealthy, rfl, rfl, fun store files strings hstore hlimits hrun =>
        load_saved hlib hrange hpush hstore hlimits hrun⟩
    · refine (hrun.running hlib hid ?_).healthy
      simp only [Process.beginAppend, hsaved]
      exact ⟨hsound, hhealthy, by simp [Pipeline.pending]⟩
  · exact failedClosed_of_not_fits hhealthy hleader hsize hroom hlib hstorage

end Appending

/-! ## A cluster of one -/

def solo : RaftConfig where
  nodeId := nodeA
  storageDir := ascii "/raft"

def stepAll (lib : Libraries) (cfg : RaftConfig) (actions : List Action) (p : Process) :
    Option Process :=
  actions.foldlM (fun p action => (p.step lib cfg action []).map Prod.fst) p

theorem Reached.stepAll {lib : Libraries} {cfg : RaftConfig} {actions : List Action}
    {p after : Process} (hreach : Reached lib cfg p)
    (h : stepAll lib cfg actions p = some after) : Reached lib cfg after := by
  induction actions generalizing p with
  | nil => exact Option.some.inj h ▸ hreach
  | cons act rest ih =>
    obtain ⟨middle, hmid, hrest⟩ := Option.bind_eq_some_iff.mp h
    obtain ⟨⟨next, outputs⟩, hstep, rfl⟩ := Option.map_eq_some_iff.mp hmid
    exact ih (hreach.step hstep) hrest

def SoloLeader (p : Process) : Prop :=
  p.host.node.healthy = true ∧ p.host.node.state = .leader ∧ p.host.node.currentTerm = 1 ∧
    p.host.node.log = [] ∧
    Fits reference solo (pushCommand solo sampleSubmitFrame p.host.node).persistent

instance (p : Process) : Decidable (SoloLeader p) := by
  unfold SoloLeader
  infer_instance

theorem soloLeader_reached : ∃ p, Reached reference solo p ∧ SoloLeader p := by
  have hrun : (stepAll reference solo [.boot false, .start] {}).any (fun p => SoloLeader p) =
      true := by decide +kernel
  obtain ⟨p, hsteps, hlead⟩ := (Option.any_eq_true _ _).mp hrun
  exact ⟨p, Reached.new.stepAll hsteps, of_decide_eq_true hlead⟩

theorem no_poison_command_soloLeader : ∃ p, Reached reference solo p ∧
    StoredCommand reference solo sampleSubmitFrame p.host
      (appendCommand reference solo sampleSubmitFrame (p.withIo []).host) := by
  obtain ⟨p, hreach, hup, hlead, hterm, hlog, hfits⟩ := soloLeader_reached
  have happend := no_poison_command reference_lawful (by decide) hreach hup hlead
    (by omega) (show utf8Valid sampleSubmitFrame = true by decide) (by decide)
    (by rw [hlog]; decide)
  exact ⟨p, hreach, (happend.1 hfits).1⟩

def joinQueue : RaftCommand where
  kind := .matchJoin
  userId := ascii "u"
  mmr := 1000

/-- The command's frame, whose rating is not UTF-8. -/
def joinFrame : Bytes :=
  [0x42, 0x47, 0x52, 0x43, 0x08, 0x01, 0x52, 0x08, 0x0A, 0x01, 0x75, 0x10, 0xE8, 0x07, 0x20, 0x01]

/-- The refused command stays in the log unsaved, and the leader is out of service. -/
theorem no_poison_command_joinFrame :
    serializeRaftCommand reference Proto.commandReference joinQueue .protobufV1 = .ok joinFrame ∧
    ∃ p after, Reached reference solo p ∧ SoloLeader p ∧
      appendCommand reference solo joinFrame (p.withIo []).host = (after, false) ∧
      after.node.healthy = false ∧ after.node.log ≠ p.host.node.log ∧
      after.disk = p.host.disk := by
  refine ⟨by decide +kernel, ?_⟩
  have hrun : (stepAll reference solo [.boot false, .start] {}).any (fun p => SoloLeader p ∧
      (appendCommand reference solo joinFrame (p.withIo []).host).2 = false ∧
      (appendCommand reference solo joinFrame (p.withIo []).host).1.node.healthy = false ∧
      (appendCommand reference solo joinFrame (p.withIo []).host).1.node.log ≠ p.host.node.log ∧
      (appendCommand reference solo joinFrame (p.withIo []).host).1.disk = p.host.disk) =
        true := by decide +kernel
  obtain ⟨p, hsteps, hcheck⟩ := (Option.any_eq_true _ _).mp hrun
  obtain ⟨hlead, hrefused, hdown, hlog, hdisk⟩ := of_decide_eq_true hcheck
  exact ⟨p, _, Reached.new.stepAll hsteps, hlead, Prod.ext rfl hrefused, hdown, hlog, hdisk⟩

/-! ## A state that outgrows its file -/

def longCommand : Bytes := List.replicate (1024 * 1024) 97

def grown (n : Nat) : RaftPersistentState where
  currentTerm := 1
  log := List.replicate n { term := 1, command := longCommand }

theorem length_longCommand : longCommand.length = 1024 * 1024 := List.length_replicate

theorem length_lt_text_entryJson (entry : LogEntry) :
    entry.command.length < (entryJson entry).text.length := by
  have hbyte (b : UInt8) : 1 ≤ (Json.escapeByte b).length := by
    unfold Json.escapeByte
    split_ifs <;> first | decide | simp [hexByte]
  have hflat (value : Bytes) : value.length ≤ (value.flatMap Json.escapeByte).length := by
    induction value with
    | nil => simp
    | cons b value ih =>
      have hb := hbyte b
      simp only [List.flatMap_cons, List.length_append, List.length_cons]
      omega
  have hcommand := hflat entry.command
  simp only [entryJson_eq, Json.text, Json.textFields, Json.quote, List.length_append,
    List.length_singleton]
  omega

/-- The text of a state is longer than the commands of its log together. -/
theorem length_log_lt_stateText {state : RaftPersistentState} {nodeId : NodeId} {bytes : Bytes}
    (h : stateText reference state nodeId = .ok bytes) :
    (state.log.flatMap (·.command)).length < bytes.length := by
  have hitems (log : List LogEntry) : (log.flatMap (·.command)).length ≤
      (Json.textItems (log.map entryJson)).length := by
    induction log with
    | nil => simp
    | cons entry rest ih =>
      have hentry := length_lt_text_entryJson entry
      cases rest with
      | nil => simpa [Json.textItems] using hentry.le
      | cons =>
        simp only [List.map_cons, List.flatMap_cons, Json.textItems, List.length_append] at ih ⊢
        omega
  obtain ⟨text, _, hdump⟩ := bind_ok_iff.mp h
  refine (hitems state.log).trans_lt ?_
  rw [reference_writesText _ _ hdump]
  simp [stateBody_eq, Json.set, Json.insertField, Json.text, Json.textFields, -String.lt_iff_ltb]
  omega

theorem not_savable_grown : ¬ Savable reference solo (grown 64) := by
  rintro ⟨bytes, hbytes⟩
  obtain ⟨_, _, henc⟩ := bind_ok_iff.mp hbytes
  obtain ⟨_, htext, hlen⟩ := (encodeV1_ok_iff reference_lawful).mp henc
  have hlong := length_log_lt_stateText htext
  have hsum : ((grown 64).log.flatMap (·.command)).length = 64 * longCommand.length := by
    simp only [grown, List.length_flatMap, List.map_replicate, List.sum_replicate_nat]
  have hmax : defaultLimits.maxStateBytes = 64 * (1024 * 1024) := rfl
  have hlength := length_longCommand
  omega

/-- A sole node that can save its state leads at once. -/
theorem start_of_load {host : Host} {state : RaftPersistentState}
    (hnode : host.node = load (some state)) (hio : host.io = []) (hterm : state.currentTerm ≠ 0)
    (hsavable : Savable reference solo state) :
    (start reference solo host).node.healthy = true ∧
      (start reference solo host).node.state = .leader ∧
      (start reference solo host).node.persistent = state := by
  let leading : Host :=
    { host with node := asLeader solo { host.node with currentTerm := startTerm host.node } }
  have hhealthy : leading.node.healthy = true := by simp [leading, hnode, load, asLeader]
  have hpersistent : leading.node.persistent = state := by
    simp [leading, hnode, load, startTerm, hterm, asLeader, RaftNode.persistent]
  have hsave : initialPersistence reference solo host = _ :=
    persistStateLocked_of_savable (by decide) hhealthy hio (hpersistent ▸ hsavable)
  rw [start, if_neg (by simp [hnode, load]), hsave]
  exact ⟨hhealthy, rfl, hpersistent⟩

/-- A sole node comes up from its file as the leader. -/
theorem Reached.leads_of_disk {q : Process} {state : RaftPersistentState}
    (hreached : Reached reference solo q) (hdisk : q.host.disk = some state)
    (hterm : state.currentTerm ≠ 0) :
    ∃ p, Reached reference solo p ∧ p.pipeline = .free ∧ p.host.node.healthy = true ∧
      p.host.node.state = .leader ∧ p.host.node.persistent = state := by
  have hsavable := (hreached.backed (by decide)).disk state hdisk
  have hboot : q.step reference solo (.boot false) [] =
      some (Process.boot false (q.withIo []).host, [.booted]) := rfl
  have hstart : (Process.boot false (q.withIo []).host).step reference solo .start [] =
      some (Process.startNode reference solo
        ((Process.boot false (q.withIo []).host).withIo [])) := rfl
  refine ⟨_, (hreached.step hboot).step hstart, rfl, start_of_load ?_ rfl hterm hsavable⟩
  simp [Process.boot, Process.withIo, hdisk, load]

def Outgrows (p : Process) : Prop :=
  p.host.node.healthy = true ∧ p.host.node.state = .leader ∧ p.host.node.log.length < 64 ∧
    FailedClosed p.host (appendCommand reference solo longCommand (p.withIo []).host)

/-- After a restart the leader stores one more command, or is put out by it. -/
theorem Reached.grown_succ {q : Process} {n : Nat} (hreached : Reached reference solo q)
    (hdisk : q.host.disk = some (grown n)) (hn : n < 64) :
    (∃ next, Reached reference solo next ∧ next.host.disk = some (grown (n + 1))) ∨
      ∃ p, Reached reference solo p ∧ Outgrows p := by
  obtain ⟨p, hreached, hfree, hhealthy, hleader, hstate⟩ :=
    hreached.leads_of_disk hdisk (show (1 : Nat) ≠ 0 by decide)
  have hlog : p.host.node.log = (grown n).log := congrArg RaftPersistentState.log hstate
  have hlength : p.host.node.log.length = n := by rw [hlog]; exact List.length_replicate
  have hsize : longCommand.length ≤ defaultLimits.maxCommandBytes := length_longCommand.le
  have hroom : p.host.node.log.length < defaultLimits.maxLogEntries := by
    rw [hlength]
    exact hn.trans (by decide)
  by_cases hfits : Fits reference solo (pushCommand solo longCommand p.host.node).persistent
  · have hutf8 : utf8Valid longCommand = true :=
      utf8Valid_of_lt fun b hb => by rw [List.eq_of_mem_replicate hb]; decide
    obtain ⟨hid, hsound⟩ := Reached.sound_push hhealthy hleader hsize hroom reference_lawful
      (by decide) hreached hutf8
    have happend := (appendCommand_eq hhealthy hleader hsize hroom reference solo).trans
      (persistStateLocked_of_savable (by decide) hhealthy rfl
        (hsound.savable reference_lawful hid hfits))
    have hstep : p.step reference solo (.appendCommand longCommand) [] =
        some (Process.beginAppend reference solo longCommand (p.withIo []), []) := by
      simp [Process.step, Process.advance, Process.withIo, hfree]
    refine .inl ⟨_, hreached.step hstep, ?_⟩
    rw [Process.beginAppend, happend]
    obtain ⟨hterm, hvoted, -, hcommit, happlied⟩ := RaftPersistentState.mk.inj hstate
    simp [pushCommand, RaftNode.persistent, grown, hterm, hvoted, hcommit, happlied, hlog,
      List.replicate_succ']
  · exact .inr ⟨p, hreached, hhealthy, hleader, by omega, failedClosed_of_not_fits hhealthy hleader
      hsize hroom reference_lawful (by decide) hfits⟩

/-- A leader whose log has less than 64 entries is put out by a command within the limit. -/
theorem longCommand_fails_closed : ∃ p, Reached reference solo p ∧ Outgrows p := by
  by_contra hnone
  have hgrown (n : Nat) (hn : n ≤ 64) :
      ∃ q, Reached reference solo q ∧ q.host.disk = some (grown n) := by
    induction n with
    | zero =>
      have hrun : (stepAll reference solo [.boot false, .start] {}).any
          (fun p => p.host.disk = some (grown 0)) = true := by decide +kernel
      obtain ⟨p, hsteps, hdisk⟩ := (Option.any_eq_true _ _).mp hrun
      exact ⟨p, Reached.new.stepAll hsteps, of_decide_eq_true hdisk⟩
    | succ n ih =>
      obtain ⟨q, hreached, hdisk⟩ := ih (by omega)
      exact (hreached.grown_succ hdisk hn).resolve_right hnone
  obtain ⟨q, hreached, hdisk⟩ := hgrown 64 le_rfl
  exact not_savable_grown ((hreached.backed (by decide)).disk _ hdisk)

end BoostGateway.Raft
