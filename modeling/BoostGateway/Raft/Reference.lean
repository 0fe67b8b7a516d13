import BoostGateway.JsonReader
import BoostGateway.Raft.Cluster
import BoostGateway.Sha256

/-!
# A cluster of three

An instance of the model that can be evaluated: the text of `Json.text` and its reader for the
JSON library, SHA-256, and three nodes that share one peer list. `reached` takes a list of steps
from the start, and `reached_run` says that it is a run.
-/

namespace BoostGateway.Raft

open List Process Cluster

/-- A library that prints as `Json.text` does, refuses bad UTF-8 and reads its text back. -/
def reference : Libraries where
  dump value := if value.utf8 then .ok value.text else .error "invalid UTF-8"
  parse bytes :=
    match Json.readDocument bytes with
    | some document => .ok document
    | none => .error "parse error"
  sha256 := Sha256.digest

theorem reference_lawful : reference.Lawful where
  dump_ok_iff document := by cases hutf8 : document.utf8 <;> simp [reference, hutf8]
  parse_dump document bytes hcan hdump := by
    cases hutf8 : document.utf8 with
    | false => simp [reference, hutf8] at hdump
    | true =>
      simp only [reference, hutf8, if_true, Except.ok.injEq] at hdump
      subst hdump
      simp [reference, Json.readDocument_text hcan hutf8]
  sha256_length := Sha256.length_digest

/-! ## Checksums in a run -/

def quick : Libraries :=
  { reference with sha256 := fun _ => List.replicate 32 0 }

theorem quick_lawful : quick.Lawful := { reference_lawful with sha256_length := fun _ => rfl }

theorem length_quote_hex (dig : Bytes) :
    (Json.quote (dig.flatMap hexByte)).length = 2 * dig.length + 2 := by
  have hplain : ∀ n < 16, Json.escapeByte (hexDigit n) = [hexDigit n] := by decide
  have hflat : ((dig.flatMap hexByte).flatMap Json.escapeByte).length = 2 * dig.length := by
    induction dig with
    | nil => rfl
    | cons b dig ih =>
      have hlt := b.toNat_lt
      rw [flatMap_cons, flatMap_append, length_append, ih, hexByte,
        flatMap_cons, flatMap_cons, hplain _ (by omega),
        hplain _ (Nat.mod_lt _ (by decide))]
      simp only [flatMap_nil, length_append, length_cons, length_nil]
      omega
  simp only [Json.quote, length_append, length_singleton, hflat]
  omega

theorem length_text_checksum (state : RaftPersistentState) (nodeId : NodeId) {a b : Bytes}
    (h : a.length = b.length) :
    ((stateBody state nodeId).set "checksum_sha256" (.string (a.flatMap hexByte))).text.length =
      ((stateBody state nodeId).set "checksum_sha256"
        (.string (b.flatMap hexByte))).text.length := by
  simp [stateBody_eq, Json.set, Json.insertField, Json.text, Json.textFields, length_quote_hex, h,
    -String.lt_iff_ltb]

theorem dumpState_checksum {state : RaftPersistentState} {nodeId : NodeId} {text path : Bytes}
    (htext : dumpState reference (stateBody state nodeId) path = .ok text) (dig : Bytes) :
    dumpState reference ((stateBody state nodeId).set "checksum_sha256"
        (.string (dig.flatMap hexByte))) path =
      .ok ((stateBody state nodeId).set "checksum_sha256"
        (.string (dig.flatMap hexByte))).text := by
  have hutf8 : (stateBody state nodeId).utf8 = true :=
    (reference_lawful.dump_ok_iff _).mp ⟨text, dumpState_ok_iff.mp htext⟩
  have hcheck : ((stateBody state nodeId).set "checksum_sha256"
      (.string (dig.flatMap hexByte))).utf8 = true :=
    Json.utf8_set hutf8 (utf8Valid_hex dig)
  rw [dumpState_ok_iff]
  exact if_pos hcheck

/-- A state is refused for the same reason with either checksum. -/
theorem encodeV1_quick (state : RaftPersistentState) (nodeId : NodeId)
    (limits : RaftStateCodecLimits) (path : Bytes) :
    (encodeV1 reference state nodeId limits path).map (fun _ => ()) =
      (encodeV1 quick state nodeId limits path).map (fun _ => ()) := by
  have hdump : ∀ doc, dumpState quick doc path = dumpState reference doc path := fun _ => rfl
  unfold encodeV1
  simp only [sha256Hex_eq reference_lawful, sha256Hex_eq quick_lawful, hdump]
  cases validateState state limits path with
  | error => simp only [bind, Except.bind]
  | ok =>
    cases htext : dumpState reference (stateBody state nodeId) path with
    | error => simp only [bind, Except.bind]
    | ok text =>
      have hlen : (reference.sha256 text).length = (quick.sha256 text).length :=
        (reference_lawful.sha256_length text).trans (quick_lawful.sha256_length text).symm
      simp only [bind, Except.bind, dumpState_checksum htext,
        length_text_checksum state nodeId hlen]
      cases check _ _ path _ <;> simp only [pure, Except.pure, Except.map]

theorem save_quick : save reference = save quick := by
  funext cfg state host
  have henc : (encodeSave reference cfg state).map (fun _ => ()) =
      (encodeSave quick cfg state).map (fun _ => ()) := by
    unfold encodeSave
    cases validateStorageNodeId cfg.nodeId defaultLimits (statePath cfg) with
    | error => simp only [bind, Except.bind]
    | ok => exact encodeV1_quick state cfg.nodeId defaultLimits (statePath cfg)
  dsimp only [save]
  generalize encodeSave reference cfg state = written at henc ⊢
  generalize encodeSave quick cfg state = written' at henc ⊢
  cases written with
  | error =>
    cases written' with
    | error =>
      obtain rfl := Except.error.inj henc
      rfl
    | ok => cases henc
  | ok =>
    cases written' with
    | error => cases henc
    | ok => rfl

/-- A cluster's steps depend on `save` only. -/
theorem step_of_save {lib lib' : Libraries} (h : save lib = save lib') :
    Cluster.step lib = Cluster.step lib' := by
  have hpersist : persistStateLocked lib = persistStateLocked lib' := by
    funext cfg host
    simp only [persistStateLocked, h]
  have hadvance : advance lib = advance lib' := by
    funext cfg action p
    simp only [advance, startNode, start, initialPersistence, becomeLeader, beginElection,
      startElection, receiveVote, countVote, becomeFollower, endElection, closeElection,
      receiveReply, heartbeatReply, receiveBeat, handleRequestVote, Raft.castVote, receiveEntries,
      handleAppendEntries, acceptEntries, callbackDone, markApplied, beginAppend, appendCommand,
      receiveEntriesReply, endReplication, commitAppended, hpersist]
    rfl
  funext setup event c
  simp only [Cluster.step, Process.step, hadvance]

theorem step_quick : Cluster.step reference = Cluster.step quick := step_of_save save_quick

def nodeA : NodeId := ascii "a"

def nodeB : NodeId := ascii "b"

def nodeC : NodeId := ascii "c"

/-- Three nodes that store their state in one directory. -/
def trio : ClusterConfig where
  peers := [nodeA, nodeB, nodeC]
  storageDir _ := ascii "/raft"
  nodup := by decide
  storage _ := by decide

def oneNode : ClusterConfig where
  peers := [nodeA]
  storageDir _ := ascii "/raft"
  nodup := by decide
  storage _ := by decide

/-! ## Scripts -/

def on (v : NodeId) (action : Action) : Event where
  node := v
  action := action

def bringUp (v : NodeId) : List Event :=
  [on v (.boot true), on v .finishDelivery, on v .finishDelivery, on v .start]

def soloUp (entries : Nat) : List Event := on nodeA (.boot true) ::
    (List.replicate entries [on nodeA .callback, on nodeA (.callbackReturned .accepted)]).flatten ++
    [on nodeA .finishDelivery, on nodeA .finishDelivery, on nodeA .start]

def soloAppended : List Event :=
  [on nodeA .closeReplication, on nodeA .callback, on nodeA (.callbackReturned .accepted),
    on nodeA .finishDelivery, on nodeA (.sendHeartbeat .pipeline)]

def askGranted (v peer : NodeId) (args : RequestVoteArgs) : List Event :=
  [on v .sendRequestVote, on peer (.requestVote args),
    on v (.voteReplied (.reply { term := args.term, voteGranted := true }))]

def askLost (v : NodeId) : List Event := [on v .sendRequestVote, on v (.voteReplied .empty)]

def replicationLost (v : NodeId) : List Event :=
  [on v .sendEntries, on v (.entriesReplied .empty), on v .sendEntries,
    on v (.entriesReplied .empty), on v .closeReplication]

def accepted (term matchIndex : Nat) : RpcResult AppendEntriesReply :=
  .reply { term, success := true, matchIndex }

def emptyBeat (term : Nat) (leaderId : NodeId) : AppendEntriesArgs where
  term := term
  leaderId := leaderId

/-- All nodes come up, and `a` wins term 1 with the vote of `b`. -/
def electA : List Event :=
  bringUp nodeA ++ bringUp nodeB ++ bringUp nodeC ++ [on nodeA .startElection] ++
    askGranted nodeA nodeB { term := 1, candidateId := nodeA } ++ askLost nodeA ++
    [on nodeA .closeElection]

def electB : List Event := [on nodeB .startElection] ++ askLost nodeB ++
    askGranted nodeB nodeC { term := 2, candidateId := nodeB } ++ [on nodeB .closeElection]

/-! ## Runs -/

section Runs

variable (condition : Cluster → Event → Prop) [∀ c event, Decidable (condition c event)]

def reached (events : List Event) : Cluster :=
  (exec reference trio condition events {}).getD {}

theorem reached_run (events : List Event) (p : Cluster → Prop) [DecidablePred p]
    (h : (exec quick trio condition events {}).any (fun c => decide (p c)) = true) :
    Run reference trio condition (reached condition events) ∧ p (reached condition events) := by
  have hquick : exec quick trio condition events {} =
      exec reference trio condition events {} := by simp [exec, step_quick]
  rw [hquick] at h
  obtain ⟨c, hc, hcheck⟩ := (Option.any_eq_true _ _).mp h
  rw [reached, hc]
  exact ⟨Run.init.exec hc, of_decide_eq_true hcheck⟩

theorem reached_step (events : List Event) (event : Event) (p : Cluster → Cluster → Prop)
    [∀ c c', Decidable (p c c')] (h : (exec quick trio condition events {}).any (fun c =>
      decide ((Cluster.step quick trio event c).any fun c' => decide (p c c'))) = true) :
    Run reference trio condition (reached condition events) ∧
      ∃ c', Cluster.step reference trio event (reached condition events) = some c' ∧
        p (reached condition events) c' := by
  obtain ⟨hrun, hstep⟩ := reached_run condition events _ h
  rw [← step_quick] at hstep
  obtain ⟨c', hstep, hcheck⟩ := (Option.any_eq_true _ _).mp hstep
  exact ⟨hrun, c', hstep, of_decide_eq_true hcheck⟩

end Runs

end BoostGateway.Raft
