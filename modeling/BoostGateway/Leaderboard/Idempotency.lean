import BoostGateway.Leaderboard.Service
import BoostGateway.Raft.Verdicts
import BoostGateway.Runs

/-!
# Idempotent submissions

A process records a key before the score is stored and keeps it when that fails, so a retry is
answered `ok` for a score that was never applied; another process has not recorded it, so a retry
there stores the score again. `submitted_once` is about the other runs.
-/

namespace BoostGateway.Leaderboard

open Function List Raft Protobuf LeaderboardCluster ServiceCluster

section Entries

variable (lib : Libraries) (proto : Codec Proto.CommandEnvelope)

def scoreOf (entry : LogEntry) : Option (Bytes × Bytes × Int64) :=
  match submitOf lib proto entry with
  | .ok command => some (command.userId, command.displayName, command.score)
  | .error _ => none

variable {lib proto}
variable {entry : LogEntry}

theorem scoreOf_of_accepted {s : LeaderboardService}
    (h : ((machine lib proto).apply entry s).2 = .accepted) : scoreOf lib proto entry ≠ none := by
  unfold scoreOf
  have h : (applyRaftEntry lib proto entry s).2 = .accepted := h
  unfold applyRaftEntry at h
  cases hsubmit : submitOf lib proto entry with
  | ok => simp
  | error =>
    rw [hsubmit] at h
    cases h

theorem machine_holder (entry : LogEntry) (s : LeaderboardService) :
    ((machine lib proto).apply entry s).1.holder = s.holder := by
  show (applyRaftEntry lib proto entry s).1.holder = s.holder
  unfold applyRaftEntry
  split <;> rfl

/-- An entry has the score of its request. -/
theorem scoreOf_serialized (hlib : lib.Lawful) (htext : lib.WritesText)
    (hproto : proto.Lawful Proto.CommandEnvelope.strings) {request : SubmitRequest}
    {format : RaftWireFormat}
    (hbytes : serializeRaftCommand lib proto (makeSubmitCommand request) format = .ok entry.command)
    (h : scoreOf lib proto entry ≠ none) :
    scoreOf lib proto entry =
      some (request.userId, request.displayName, request.score.toInt64) := by
  unfold scoreOf at h ⊢
  cases hsubmit : submitOf lib proto entry with
  | error => exact absurd (by rw [hsubmit]) h
  | ok =>
    obtain ⟨read, hread, hkind⟩ := bind_ok_iff.mp hsubmit
    obtain ⟨hsame, huser, hname, hscore⟩ := agrees_of_parse hlib htext hproto hbytes hread
    rw [hsame] at hkind
    cases hkind
    dsimp only
    rw [huser, hname, hscore]
    rfl

end Entries

/-! ## The property and the condition -/

/-- A score that was submitted under a key has been applied. -/
def Applied (setup : LeaderboardSetup) (m : LeaderboardCluster) (key : Bytes) : Prop :=
  ∃ submission ∈ m.stored, submission.request.idempotencyKey = key ∧
    m.applied submission.index submission.entry = true ∧
    scoreOf setup.lib setup.proto submission.entry = some (submission.request.userId,
      submission.request.displayName, submission.request.score.toInt64)

namespace LeaderboardCluster

/-- For every key: after an answer `ok` exactly one score was applied, and what was applied was
submitted. -/
structure SubmittedOnce (setup : LeaderboardSetup) (m : LeaderboardCluster) : Prop where
  answered : ∀ request reply, (request, reply) ∈ m.replies → reply.isOk = true →
    request.idempotencyKey ≠ [] → Applied setup m request.idempotencyKey
  once : ∀ submission ∈ m.stored, ∀ other ∈ m.stored, submission.request.idempotencyKey ≠ [] →
    other.request.idempotencyKey = submission.request.idempotencyKey →
    m.applied submission.index submission.entry = true →
    m.applied other.index other.entry = true →
    other.index = submission.index ∧ other.entry = submission.entry
  submitted : ∀ index entry, m.applied index entry = true →
    ∃ submission ∈ m.stored, submission.index = index ∧ submission.entry = entry

/-- `append_command` works, is called for a key with nothing stored, and a recorded key comes again
only after `ok`. -/
def keyedStep (setup : LeaderboardSetup) (m : LeaderboardCluster) : LeaderboardEvent → Bool
  | .node event => appendStep setup.cluster m.nodes.raft event
  | .submit v request =>
    request.idempotencyKey.isEmpty ||
      request.idempotencyKey ∉ (m.service v).appliedIdempotencyKeys ||
      m.replies.any fun answered =>
        answered.1.idempotencyKey = request.idempotencyKey && answered.2.isOk
  | .check _ _ => true
  | .append v i _ _ =>
    match (m.service v).waiting[i]? with
    | some { request, .. } =>
      request.idempotencyKey.isEmpty || m.stored.all fun submission =>
        submission.request.idempotencyKey ≠ request.idempotencyKey
    | none => true

end LeaderboardCluster

/-! ## The invariant -/

section Invariant

variable {setup : LeaderboardSetup} {m m' : LeaderboardCluster}

def Stored (stored : List Submission) (index : Nat) (entry : LogEntry) : Prop :=
  ∃ submission ∈ stored, submission.index = index ∧ submission.entry = entry

/-- The request of the call under way is stored, and the call is for its entry. -/
structure Holds (stored : List Submission) (p : Process) (request : SubmitRequest) : Prop where
  up : p.host.node.applyCb = true
  entry : ∃ submission ∈ stored, submission.request = request ∧
    p.pipeline.appending = some (submission.index, submission.entry.command) ∧
    p.host.node.log[submission.index - 1]? = some submission.entry

def Held (stored : List Submission) (p : Process) (s : LeaderboardService) : Prop :=
  ∀ request, s.holder = some request → Holds stored p request

/-- What such a run keeps of the submissions. -/
structure Kept (setup : LeaderboardSetup) (m : LeaderboardCluster) : Prop where
  run : Cluster.Run setup.lib setup.cluster (appendStep setup.cluster) m.nodes.raft
  heard : m.nodes.AllHeard setup.cluster fun entry =>
    scoreOf setup.lib setup.proto entry ≠ none
  traced : ClusterTraced (Stored m.stored) m.nodes.raft
  written : ∀ submission ∈ m.stored, ∃ format, serializeRaftCommand setup.lib setup.proto
    (makeSubmitCommand submission.request) format = .ok submission.entry.command
  keys : ∀ submission ∈ m.stored, ∀ other ∈ m.stored, submission.request.idempotencyKey ≠ [] →
    other.request.idempotencyKey = submission.request.idempotencyKey → other = submission
  answered : ∀ request reply, (request, reply) ∈ m.replies → reply.isOk = true →
    request.idempotencyKey ≠ [] → Applied setup m request.idempotencyKey

structure KeyInv (setup : LeaderboardSetup) (m : LeaderboardCluster) : Prop
    extends Kept setup m where
  holders : ∀ v request, (m.service v).holder = some request →
    Holds m.stored (m.nodes.raft.procs v) request

variable {index i : Nat} {action : Action} {outputs : List (NodeId × Output)} {reply : SubmitReply}
  {lib : Libraries} {cluster : ClusterConfig} {stored : List Submission} {bytes : Bytes}
  {format : RaftWireFormat}

theorem applied_iff {entry : LogEntry} :
    m.applied index entry = true ↔ ∃ v, (v, .applied index entry) ∈ m.nodes.raft.history := by
  simp [applied]

theorem Applied.mono {key : Bytes} (h : Applied setup m key) (hstored : m.stored ⊆ m'.stored)
    (hhist : m.nodes.raft.history ⊆ m'.nodes.raft.history) : Applied setup m' key := by
  obtain ⟨submission, hmem, hkey, happ, hscore⟩ := h
  obtain ⟨v, hv⟩ := applied_iff.mp happ
  exact ⟨submission, hstored hmem, hkey, applied_iff.mpr ⟨v, hhist hv⟩, hscore⟩

theorem KeyInv.initial : KeyInv setup {} where
  run := .init
  heard _ _ hup := by cases hup
  traced := .initial
  written _ h := by cases h
  holders _ _ h := by cases h
  keys _ h := by cases h
  answered _ _ h := by cases h

theorem KeyInv.submittedOnce (h : KeyInv setup m) : m.SubmittedOnce setup where
  answered := h.answered
  once submission hmem other hother hkey hsame _ _ := by
    rw [h.keys submission hmem other hother hkey hsame]
    exact ⟨rfl, rfl⟩
  submitted index entry happ := by
    obtain ⟨v, hmem⟩ := applied_iff.mp happ
    exact h.traced.history v _ hmem

variable {s : LeaderboardService} {request : SubmitRequest} {v : NodeId} {c : Cluster}
  {event : Event} {nodes : ServiceCluster LeaderboardService} {io : List IoOutcome}

theorem reply_isOk (h : (s.reply request action outputs).isOk = true) :
    ∃ v index cmd, (v, .appended index cmd) ∈ outputs := by
  unfold LeaderboardService.reply at h
  split at h
  next hany =>
    obtain ⟨⟨v, output⟩, hmem, happended⟩ := any_eq_true.mp hany
    cases output with
    | appended index cmd => exact ⟨v, index, cmd, hmem⟩
    | _ => cases happended
  · split at h <;> cases h

theorem Kept.answer (h : Kept setup m) (hrep : reply.isOk = true → request.idempotencyKey ≠ [] →
      Applied setup m request.idempotencyKey) : Kept setup (m.answer request reply) where
  run := h.run
  heard := h.heard
  traced := h.traced
  written := h.written
  keys := h.keys
  answered other reply' hmem hok hkey := by
    rcases mem_append.mp hmem with hold | hnew
    · exact h.answered other reply' hold hok hkey
    · obtain ⟨rfl, rfl⟩ := Prod.mk.inj (mem_singleton.mp hnew)
      exact hrep hok hkey

theorem Kept.setService (h : Kept setup m) (v : NodeId) (s : LeaderboardService) :
    Kept setup (m.setService v s) :=
  ⟨h.run, h.heard, h.traced, h.written, h.keys, h.answered⟩

theorem KeyInv.setService (h : KeyInv setup m) (hhold : s.holder = (m.service v).holder) :
    KeyInv setup (m.setService v s) where
  toKept := h.toKept.setService v s
  holders := (forall_update_iff _ fun u => Held m.stored (m.nodes.raft.procs u)).mpr
    ⟨fun request heq => h.holders v request (hhold ▸ heq), fun u _ => h.holders u⟩

theorem KeyInv.answer (h : KeyInv setup m) (hrep : reply.isOk = true → request.idempotencyKey ≠ [] →
      Applied setup m request.idempotencyKey) : KeyInv setup (m.answer request reply) :=
  ⟨h.toKept.answer hrep, h.holders⟩

/-- The holder is answered if its call has ended. -/
theorem Kept.settle (h : Kept setup m)
    (hother : ∀ u, u ≠ v → Held m.stored (m.nodes.raft.procs u) (m.service u))
    (hself : ∀ request, (m.service v).holder = some request →
      (m.nodes.raft.procs v).pipeline.appending = none ∨
        Holds m.stored (m.nodes.raft.procs v) request)
    (hok : ∀ request, (m.service v).holder = some request →
      (∃ u index cmd, (u, .appended index cmd) ∈ outputs) →
      Applied setup m request.idempotencyKey) : KeyInv setup (m.settle v action outputs) := by
  fun_cases LeaderboardCluster.settle m v action outputs with
  | case1 s request hnone hhold =>
    refine ⟨(h.setService v _).answer ?_, ?_⟩
    · exact fun hrep _ => hok request hhold (reply_isOk hrep)
    · exact (forall_update_iff _ fun u => Held m.stored (m.nodes.raft.procs u)).mpr ⟨nofun, hother⟩
  | case2 s hgoing =>
    refine ⟨h, fun u request hhold => ?_⟩
    by_cases huv : u = v
    · subst huv
      exact (hself request hhold).resolve_left fun hnone => hgoing request hhold hnone
    · exact hother u huv request hhold

theorem KeyInv.handleSubmit (h : KeyInv setup m)
    (hkeyed : m.keyedStep setup (.submit v request) = true) :
    KeyInv setup (m.handleSubmit v request) := by
  fun_cases LeaderboardCluster.handleSubmit m v request with
  | case1 => exact h.answer nofun
  | case3 s _ hempty hrecord =>
    -- a request with the key was answered `ok` before
    refine h.answer fun _ _ => ?_
    simp only [keyedStep, Bool.or_eq_true, decide_eq_true_eq] at hkeyed
    rcases hkeyed with (hnone | hnot) | hpre
    · exact absurd hnone hempty
    · exact absurd hrecord hnot
    · obtain ⟨⟨other, reply⟩, hmem, hsame⟩ := any_eq_true.mp hpre
      simp only [Bool.and_eq_true, decide_eq_true_eq] at hsame
      rw [← hsame.1]
      refine h.answered other reply hmem hsame.2 fun hnil => ?_
      rw [← hsame.1, hnil] at hempty
      exact hempty rfl
  | case2 | case4 => exact h.setService rfl

theorem KeyInv.checkLeader (h : KeyInv setup m) (v : NodeId) (i : Nat) :
    KeyInv setup ((m.checkLeader setup v i).getD m) := by
  fun_cases LeaderboardCluster.checkLeader setup m v i with
  | case1 => exact h.setService rfl
  | case2 => exact KeyInv.answer (h.setService (by rfl)) nofun
  | case3 => exact h

theorem appendStep_appendCommand (cluster : ClusterConfig) (c : Cluster) (v : NodeId)
    (cmd : Bytes) (io : List IoOutcome) :
    appendStep cluster c { node := v, action := .appendCommand cmd, io } := by
  refine ⟨⟨trivial, trivial⟩, ?_, trivial⟩
  unfold SteadyStep
  split
  next hreport => cases hreport
  · trivial

theorem run_orderly_of_append (h : Cluster.Run lib cluster (appendStep cluster) c) :
    Cluster.Run lib cluster (orderlyStep cluster) c := by
  induction h with
  | init => exact .init
  | step _ hcond hstep ih => exact ih.step hcond.1 hstep

/-- A section keeps what its holder relies on. -/
theorem Holds.step {stored' : List Submission} {c' : Cluster}
    (h : Holds stored (c.procs event.node) request)
    (hstep : Cluster.step lib cluster event c = some c') (hstored : stored ⊆ stored') :
    (c'.procs event.node).pipeline.appending = none ∨
      Holds stored' (c'.procs event.node) request := by
  obtain ⟨_, _, p, outputs, hadvance, rfl⟩ := step_eq_some hstep
  have hadv := Process.advances_of_advance hadvance
  obtain ⟨submission, hmem, hreq, happ, hentry⟩ := h.entry
  dsimp only
  rw [update_self]
  by_cases hboot : ∃ cb, event.action = .boot cb
  · obtain ⟨cb, hboot⟩ := hboot
    rw [hboot] at hadv
    cases hadv with
    | boot => exact .inl (boot_appending cb _)
  rcases appending_of_advances hadv happ with hnone | ⟨hsome, hlog⟩
  · exact .inl hnone
  · refine .inr ⟨?_, submission, hstored hmem, hreq, hsome, hlog ▸ hentry⟩
    have hsteps := Process.hostSteps_of_advances hadv fun cb h => hboot ⟨cb, h⟩
    exact hsteps.applyCb.trans h.up

def submissionOf (m : LeaderboardCluster) (v : NodeId) (request : SubmitRequest) (bytes : Bytes) :
    Submission where
  request
  index := (m.nodes.raft.procs v).host.node.log.length + 1
  entry := { term := (m.nodes.raft.procs v).host.node.currentTerm, command := bytes }

def storedBy (m : LeaderboardCluster) (v : NodeId) (request : SubmitRequest) (bytes : Bytes) :
    List Submission :=
  m.stored ++
    if storesCommand (m.nodes.raft.procs v).host.node bytes then [submissionOf m v request bytes]
    else []

theorem mem_storedBy {sub : Submission} : sub ∈ storedBy m v request bytes ↔
    sub ∈ m.stored ∨ storesCommand (m.nodes.raft.procs v).host.node bytes = true ∧
      sub = submissionOf m v request bytes := by
  unfold storedBy
  split <;> simp [*]

/-- The submissions once a leader may have stored one more. -/
theorem Kept.appends (h : Kept setup m)
    (hbytes : serializeRaftCommand setup.lib setup.proto (makeSubmitCommand request) format =
      .ok bytes) (hfresh : request.idempotencyKey ≠ [] → ∀ sub ∈ m.stored,
      sub.request.idempotencyKey ≠ request.idempotencyKey)
    (happends : Appends setup.lib setup.cluster v bytes io m.nodes nodes) :
    Kept setup { m with nodes, stored := storedBy m v request bytes } where
  run := h.run.step (appendStep_appendCommand _ _ _ _ _) happends.raft
  heard := h.heard.appends (run_orderly_of_append h.run) happends
  traced := by
    refine h.traced.step ?_ ?_ happends.raft
    · rintro index entry ⟨sub, hmem, hsame⟩
      exact ⟨sub, mem_storedBy.mpr (.inl hmem), hsame⟩
    · intro cmd hact hstores
      obtain rfl := Action.appendCommand.inj hact
      exact ⟨_, mem_storedBy.mpr (.inr ⟨hstores, rfl⟩), rfl, rfl⟩
  written sub hmem := by
    rcases mem_storedBy.mp hmem with hold | ⟨_, rfl⟩
    · exact h.written sub hold
    · exact ⟨format, hbytes⟩
  keys sub hmem other hother hkey hsame := by
    rcases mem_storedBy.mp hmem with hold | ⟨_, rfl⟩ <;>
      rcases mem_storedBy.mp hother with hold' | ⟨_, rfl⟩
    · exact h.keys sub hold other hold' hkey hsame
    · exact absurd hsame.symm (hfresh (hsame ▸ hkey) sub hold)
    · exact absurd hsame (hfresh hkey other hold')
    · rfl
  answered other reply hmem hok hkey :=
    (h.answered other reply hmem hok hkey).mono (subset_append_left _ _)
      (history_subset happends.raft)

/-- After its first section a call holds the pipeline for its entry. -/
theorem holds_of_appends (happends : Appends setup.lib setup.cluster v bytes io m.nodes nodes) :
    (nodes.raft.procs v).pipeline.appending = none ∨
      Holds (storedBy m v request bytes) (nodes.raft.procs v) request := by
  obtain ⟨_, _, p, outputs, hadvance, hraft⟩ := step_eq_some happends.raft
  have hadv := Process.advances_of_advance hadvance
  have hsteps := Process.hostSteps_of_advances hadv (by simp)
  have hproc : nodes.raft.procs v = p := by
    rw [hraft]
    exact update_self _ _ _
  rw [hproc]
  cases hadv with
  | appendCommand _ hpipe =>
    rw [or_iff_not_imp_left]
    intro hsome
    obtain ⟨hstores, happ, hlog⟩ := beginAppend_stored hpipe hsome
    refine ⟨hsteps.applyCb.trans happends.up, _, mem_storedBy.mpr (.inr ⟨hstores, rfl⟩),
      rfl, happ, ?_⟩
    rw [hlog]
    exact List.getElem?_concat_length

/-- A request calls `append_command`. -/
theorem KeyInv.appendSubmit (h : KeyInv setup m)
    (hkeyed : m.keyedStep setup (.append v i format io) = true) :
    KeyInv setup ((m.appendSubmit setup v i format io).getD m) := by
  fun_cases LeaderboardCluster.appendSubmit setup m v i format io with
  | case1 => exact KeyInv.answer (h.setService (by rfl)) nofun
  | case2 _ request hwait s bytes hbytes =>
    cases hnodes : m.nodes.append setup.lib setup.cluster v bytes io with
    | none => exact h
    | some nodes =>
      have happends := appends_of_append hnodes
      have hfresh : request.idempotencyKey ≠ [] → ∀ earlier ∈ m.stored,
          earlier.request.idempotencyKey ≠ request.idempotencyKey := by
        intro hkey earlier hmem
        dsimp only [keyedStep] at hkeyed
        rw [hwait] at hkeyed
        rcases Bool.or_eq_true_iff.mp hkeyed with hempty | hall
        · exact absurd (isEmpty_iff.mp hempty) hkey
        · exact of_decide_eq_true (all_eq_true.mp hall earlier hmem)
      have hkept := h.toKept.appends hbytes hfresh happends
      have hset := update_self v { s with holder := some request } nodes.services
      refine (hkept.setService v { s with holder := some request }).settle ?_ ?_ ?_
      · intro u hu other hhold
        have hservice := (update_of_ne hu { s with holder := some request } _).trans
          (congrFun happends.services u)
        obtain ⟨hup, earlier, hmem, hholds⟩ :=
          h.holders u other ((congrArg _ hservice.symm).trans hhold)
        show Holds _ (nodes.raft.procs u) other
        rw [procs_of_ne happends.raft hu]
        exact ⟨hup, earlier, mem_append_left _ hmem, hholds⟩
      · intro other hhold
        cases (congrArg _ hset.symm).trans hhold
        have hholds : _ ∨ Holds _ _ request := holds_of_appends happends
        exact hholds
      · exact nofun
  | case3 => exact h

variable (hlib : setup.lib.Lawful) (htext : setup.lib.WritesText)
  (hproto : setup.proto.Lawful Proto.CommandEnvelope.strings)

include hlib htext hproto

/-- A holder's call returns true after the score was applied. -/
theorem KeyInv.applied_of_appended (h : KeyInv setup m)
    (hstep : Cluster.step setup.lib setup.cluster event m.nodes.raft = some c)
    (hhold : (m.service event.node).holder = some request) {cmd : Bytes}
    (hout : (v, .appended index cmd) ∈ newOutputs m.nodes.raft c) :
    Applied setup m request.idempotencyKey := by
  obtain ⟨hup, submission, hmem, rfl, happ, hlog⟩ := h.holders event.node request hhold
  obtain ⟨entry, happlied, haccepted, hentry⟩ := h.heard.of_appended h.run hstep hup hout
  obtain ⟨⟨beat, hpipe⟩, _⟩ := beating_of_appended h.run hstep hout
  obtain rfl := (advances_of_mem_newOutputs hstep hout).1
  rw [hpipe] at happ
  obtain ⟨hidx, hcmd⟩ := Prod.mk.inj (Option.some.inj happ)
  rw [← hidx] at hlog
  cases hentry.symm.trans hlog
  obtain ⟨format, hformat⟩ := h.written submission hmem
  refine ⟨submission, hmem, rfl, applied_iff.mpr ⟨event.node, hidx ▸ happlied⟩, ?_⟩
  exact scoreOf_serialized hlib htext hproto hformat haccepted

theorem KeyInv.node (h : KeyInv setup m) (hcond : appendStep setup.cluster m.nodes.raft event)
    (hsteps : Steps setup.lib setup.cluster (machine setup.lib setup.proto) event m.nodes nodes) :
    KeyInv setup (({ m with nodes }).settle event.node event.action
      (newOutputs m.nodes.raft nodes.raft)) := by
  have hstep := hsteps.raft
  have hhist := history_subset hstep
  have hkept : Kept setup { m with nodes } := by
    refine ⟨h.run.step hcond hstep, ?_, ?_, h.written, h.keys, ?_⟩
    · exact h.heard.steps (run_orderly_of_append h.run) (fun _ _ => scoreOf_of_accepted) hsteps
    · refine h.traced.step (fun _ _ hknown => hknown) ?_ hstep
      exact fun cmd hact => absurd hact (hsteps.command cmd)
    · exact fun request reply hmem hok hkey =>
        (h.answered request reply hmem hok hkey).mono (fun _ hs => hs) hhist
  -- the callback and a restart leave no other holder than before
  have hhold : ∀ u request, (nodes.services u).holder = some request →
      (m.service u).holder = some request := by
    have hupdate {s : LeaderboardService} (hs : ∀ request, s.holder = some request →
        (m.service event.node).holder = some request) :=
      (forall_update_iff m.nodes.services fun u s => ∀ request,
        s.holder = some request → (m.service u).holder = some request).mpr
        ⟨hs, fun _ _ _ hsame => hsame⟩
    cases hsteps.served with
    | same _ hsilent hservices =>
      rw [hservices]
      exact fun _ _ hsame => hsame
    | restarted hbooted hservices =>
      rw [hservices]
      exact hupdate nofun
    | applied index entry happ hservices =>
      rw [hservices]
      exact hupdate fun request hsome => (machine_holder entry _).symm.trans hsome
  refine hkept.settle ?_ ?_ ?_
  · intro u hu request hsome
    rw [procs_of_ne hstep hu]
    exact h.holders u request (hhold u request hsome)
  · intro request hsome
    exact (h.holders event.node request (hhold event.node request hsome)).step hstep fun _ hs => hs
  · rintro request hsome ⟨v, index, cmd, hout⟩
    have hpre := hhold event.node request hsome
    exact (h.applied_of_appended hlib htext hproto hstep hpre hout).mono (fun _ hs => hs) hhist

theorem KeyInv.step (h : KeyInv setup m) {event : LeaderboardEvent}
    (hkeyed : m.keyedStep setup event = true) : KeyInv setup (m.step setup event) := by
  unfold LeaderboardCluster.step
  fun_cases advance setup m event with
  | case1 event =>
    cases hnodes : m.nodes.step setup.lib setup.cluster (machine setup.lib setup.proto) event with
    | none => exact h
    | some => exact h.node hlib htext hproto (of_decide_eq_true hkeyed) (steps_of_step hnodes)
  | case2 => exact h.handleSubmit hkeyed
  | case3 => exact h
  | case4 v i => exact h.checkLeader v i
  | case5 => exact h.appendSubmit hkeyed

end Invariant

/-! ## Runs -/

def boardOn (cluster : ClusterConfig) : LeaderboardSetup where
  lib := reference
  proto := Proto.commandReference
  cluster := cluster
  host _ := ascii "127.0.0.1"
  port _ := 9300

theorem step_boardOn (cluster : ClusterConfig) : LeaderboardCluster.step (boardOn cluster) =
    LeaderboardCluster.step { boardOn cluster with lib := quick } := by
  have hserialize : serializeRaftCommand (boardOn cluster).lib = serializeRaftCommand quick := rfl
  have hmachine : machine (boardOn cluster).lib = machine quick := rfl
  have hstep : ServiceCluster.step (boardOn cluster).lib =
      ServiceCluster.step (S := LeaderboardService) quick := step_quick
  have happend : append (boardOn cluster).lib = append (S := LeaderboardService) quick :=
    append_quick
  funext m event
  cases event <;> simp only [LeaderboardCluster.step, advance,
    LeaderboardCluster.appendSubmit, LeaderboardCluster.checkLeader,
    getLeaderHint, hserialize, hmachine, hstep, happend]

def scored : SubmitRequest where
  userId := ascii "ann"
  displayName := ascii "Ann"
  score := 70
  idempotencyKey := ascii "battle_1:ann"

def submitA : List LeaderboardEvent :=
  [.submit nodeA scored, .check nodeA 0, .append nodeA 0 .legacyJson []]

/-- The score is applied, and the client asks again. -/
def submitTwice : List LeaderboardEvent :=
  (soloUp 0).map .node ++ submitA ++ soloAppended.map .node ++ [.submit nodeA scored]

/-- The messages of `a` are lost, and the client asks again. -/
def submitAfterFailure : List LeaderboardEvent :=
  electA.map .node ++ submitA ++ (replicationLost nodeA).map .node ++ [.submit nodeA scored]

end BoostGateway.Leaderboard
