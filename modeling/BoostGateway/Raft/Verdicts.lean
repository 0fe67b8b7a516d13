import BoostGateway.Raft.Appending
import BoostGateway.Raft.Applying
import BoostGateway.Raft.StateMachine

/-!
# What the callback has accepted

A node moves its apply position if the callback accepts the entry, and is unhealthy from then on if
not. So a healthy node has an accepting callback for what it has delivered since it came up, except
for the entry it is waiting for (`Heard`), and a call of `append_command` that returns true has had
its own entry accepted (`ServiceCluster.AllHeard.of_appended`). All callbacks get the same entries
(`callbacks_agree`).
-/

namespace BoostGateway.Raft

open Function List Process Consensus Consensus.Replicas

def Pipeline.calling : Pipeline → Option (Nat × LogEntry)
  | .delivering _ (record :: _) true => some record
  | _ => none

/-- What a node knows of its callbacks and the last verdict. -/
structure Heard (accepts : LogEntry → Prop) (verdict : Verdict) (p : Process)
    (entries : List (Nat × LogEntry)) : Prop where
  calling : ∀ record, p.pipeline.calling = some record →
    record ∈ entries ∧ (verdict = .accepted → accepts record.2)
  settled : p.host.node.healthy = true →
    ∀ record ∈ entries, p.pipeline.calling = some record ∨ accepts record.2
  appending : p.pipeline.appending ≠ none → ∀ index, 1 ≤ index →
    index ≤ p.host.node.lastApplied → ∃ entry, (index, entry) ∈ entries ∧ accepts entry

section History

variable {history : List (NodeId × Output)} {u v : NodeId} {outputs : List Output}

theorem mem_foldl_noteEntry {rec : Nat × LogEntry} {entries : List (Nat × LogEntry)}
    (h : rec ∈ outputs.foldl noteEntry entries) :
    rec ∈ entries ∨ .applied rec.1 rec.2 ∈ outputs := by
  induction outputs generalizing entries with
  | nil => exact .inl h
  | cons output rest ih =>
    rcases ih h with hmem | hmem
    · cases output with
      | booted => cases hmem
      | applied =>
        rcases mem_append.mp hmem with hmem | hnew
        · exact .inl hmem
        · obtain rfl := mem_singleton.mp hnew
          exact .inr mem_cons_self
      | _ => exact .inl hmem
    · exact .inr (mem_cons_of_mem _ hmem)

theorem mem_history_of_entriesSince {index : Nat} {entry : LogEntry}
    (h : (index, entry) ∈ entriesSince history v) : (v, .applied index entry) ∈ history := by
  rcases mem_foldl_noteEntry h with hnone | hmem
  · cases hnone
  · obtain ⟨⟨u, output⟩, hfilter, rfl⟩ := mem_map.mp hmem
    obtain ⟨hhist, hv⟩ := mem_filter.mp hfilter
    exact of_decide_eq_true hv ▸ hhist

/-- A called back entry is committed at its place. -/
theorem entriesSince_committed {lib : Libraries} {setup : ClusterConfig} {c : Cluster} {a : Record}
    (hrun : Cluster.Run lib setup (orderlyStep setup) c) (hrel : ClusterRel commitLevel setup c a)
    (hv : v ∈ setup.peers) {i : Nat} {record : Nat × LogEntry}
    (h : (entriesSince c.history v)[i]? = some record) :
    record.1 = i + 1 ∧ CommittedEntry setup a (i + 1) record.2 := by
  have hindex : (appliedSince c.history v)[i]? = some record.1 := by
    rw [appliedSince, getElem?_map, h, Option.map_some]
  rw [appliedSince, (run_inOrder hrun hv).consecutive] at hindex
  obtain ⟨_, hindex⟩ := List.getElem?_eq_some_iff.mp hindex
  rw [getElem_range', Nat.one_mul, Nat.add_comm] at hindex
  have hcommitted := (hrel.network _ _ (mem_history_of_entriesSince (mem_of_getElem? h))).2 trivial
  exact ⟨hindex.symm, hindex ▸ hcommitted⟩

/-- Callbacks before an entry got its leader's entries before it. -/
theorem entriesSince_take {lib : Libraries} {setup : ClusterConfig} {c : Cluster} {a : Record}
    (hrun : Cluster.Run lib setup (orderlyStep setup) c) (hrel : ClusterRel commitLevel setup c a)
    (hv : v ∈ setup.peers) {i : Nat} {record : Nat × LogEntry}
    (h : (entriesSince c.history v)[i]? = some record) :
    ((entriesSince c.history v).map Prod.snd).take i = (a.leaderLog record.2.term).take i := by
  obtain ⟨t, entries, hcommitted, _, hentry⟩ := (entriesSince_committed hrun hrel hv h).2
  have hbacked : Backed LogEntry.term a entries := by
    rcases hcommitted with rfl | ⟨t', k, hcommitted, _, hpre⟩
    · exact .nil
    · have hlead := (hrel.inv.committed_le hcommitted).1
      exact ((hrel.inv.leaderBacked t' hlead).take k).of_isPrefix hpre
  have hleader : entries.take (i + 1) <+: a.leaderLog record.2.term :=
    (hbacked i record.2 hentry).2
  apply ext_getElem?
  intro j
  rw [getElem?_take, getElem?_take]
  split
  next hj =>
    have hlt : j < (entriesSince c.history v).length :=
      hj.trans (List.getElem?_eq_some_iff.mp h).1
    have hlt' : j < entries.length := hj.trans (List.getElem?_eq_some_iff.mp hentry).1
    have hother := (entriesSince_committed hrun hrel hv (getElem?_eq_getElem hlt)).2
    have hsame := hother.unique hrel.inv
      ⟨t, entries, hcommitted, Nat.le_add_left 1 j, getElem?_eq_getElem hlt'⟩
    rw [getElem?_map, getElem?_eq_getElem hlt, Option.map_some, hsame, ← getElem?_eq_getElem hlt']
    obtain ⟨rest, hrest⟩ := hleader
    rw [← hrest, getElem?_append_left (by rw [length_take]; omega),
      getElem?_take_of_lt (by omega)]
  · rfl

/-- The callback of a node gets the entries at 1, 2, 3 and so on, and two nodes pass the same ones
to their callbacks, as far as both have got. -/
theorem callbacks_agree {lib : Libraries} {setup : ClusterConfig} {c : Cluster}
    (hrun : Cluster.Run lib setup (orderlyStep setup) c) (hu : u ∈ setup.peers)
    (hv : v ∈ setup.peers)
    (hle : (entriesSince c.history u).length ≤ (entriesSince c.history v).length) :
    (entriesSince c.history v).map Prod.fst = List.range' 1 (entriesSince c.history v).length ∧
      entriesSince c.history u <+: entriesSince c.history v := by
  obtain ⟨a, hrel⟩ := run_orderly hrun
  refine ⟨(run_inOrder hrun hv).consecutive, prefix_iff_getElem?.mpr fun i hi => ?_⟩
  have hget := getElem?_eq_getElem (hi.trans_le hle)
  obtain ⟨hindex, hcom⟩ := entriesSince_committed hrun hrel hu (getElem?_eq_getElem hi)
  obtain ⟨hindex', hcom'⟩ := entriesSince_committed hrun hrel hv hget
  rw [hget]
  exact congrArg some (Prod.ext (hindex'.trans hindex.symm) (hcom'.unique hrel.inv hcom))

/-- `b` has applied the first of the two commands that `a` has applied. -/
theorem callbacks_agree_applyTwoX : let c := reached (orderlyStep trio) applyTwoX
    (entriesSince c.history nodeB).length = 1 ∧ (entriesSince c.history nodeA).length = 2 ∧
      entriesSince c.history nodeB <+: entriesSince c.history nodeA := by
  obtain ⟨hrun, hb, ha⟩ := reached_run (orderlyStep trio) applyTwoX
    (fun c => (entriesSince c.history nodeB).length = 1 ∧
      (entriesSince c.history nodeA).length = 2) (by decide +kernel)
  exact ⟨hb, ha, (callbacks_agree hrun (by decide) (by decide) (by omega)).2⟩

end History

section Sections

variable {lib : Libraries} {cfg : RaftConfig} {p : Process} {action : Action}
  {next : Process × List Output} {accepts : LogEntry → Prop} {verdict verdict' : Verdict}
  {entries : List (Nat × LogEntry)}

@[simp] theorem calling_delivering_false (purpose : Purpose) (pending : List (Nat × LogEntry)) :
    (Pipeline.delivering purpose pending false).calling = none := by cases pending <;> rfl

theorem calling_of_delivery {pipeline pipeline' : Pipeline}
    (h : pipeline'.delivery = pipeline.delivery) : pipeline'.calling = pipeline.calling := by
  cases pipeline <;> cases pipeline' <;> simp_all [Pipeline.delivery, Pipeline.calling]

theorem appending_delivering (purpose : Purpose) (pending pending' : List (Nat × LogEntry))
    (inFlight inFlight' : Bool) :
    (Pipeline.delivering purpose pending inFlight).appending =
      (Pipeline.delivering purpose pending' inFlight').appending := by cases purpose <;> rfl

theorem abandonDelivery_calling (purpose : Purpose) (p : Process) :
    (p.abandonDelivery purpose).1.pipeline.calling = none := by cases purpose <;> rfl

theorem boot_appending (cb : Bool) (host : Host) :
    (Process.boot cb host).pipeline.appending = none := by
  dsimp only [Process.boot]
  split <;> rfl

theorem abandonDelivery_appending (purpose : Purpose) (p : Process) :
    (p.abandonDelivery purpose).1.pipeline.appending = none := by cases purpose <;> rfl

/-- `append_command` after its first section. -/
theorem beginAppend_stored {command : Bytes} (hfree : p.pipeline = .free)
    (h : (p.beginAppend lib cfg command).pipeline.appending ≠ none) :
    storesCommand p.host.node command = true ∧ (p.beginAppend lib cfg command).pipeline.appending =
        some (p.host.node.log.length + 1, command) ∧
      (p.beginAppend lib cfg command).host.node.log =
        p.host.node.log ++ [{ term := p.host.node.currentTerm, command }] := by
  unfold beginAppend at h ⊢
  generalize hres : appendCommand lib cfg command p.host = result at h ⊢
  obtain ⟨host, ok⟩ := result
  cases ok with
  | false => exact absurd (by rw [hfree]; rfl) h
  | true =>
    obtain ⟨hstores, hnode⟩ := appendCommand_true hres
    refine ⟨hstores, ?_, by simp [hnode, pushCommand]⟩
    simp [Pipeline.appending, hnode, pushCommand]

variable {index : Nat} {purpose : Purpose} {entry : LogEntry} {rest : List (Nat × LogEntry)}

theorem Heard.abandon (purpose : Purpose)
    (hrests : p.host.node.healthy = true → ∀ rec ∈ entries, accepts rec.2) :
    Heard accepts verdict (p.abandonDelivery purpose).1 entries where
  calling := by simp [abandonDelivery_calling]
  settled := by
    rw [abandonDelivery_host]
    exact fun hhealthy rec hrec => .inr (hrests hhealthy rec hrec)
  appending := absurd (abandonDelivery_appending purpose p)

theorem Heard.boot (cb : Bool) (host : Host) : Heard accepts verdict (Process.boot cb host) [] where
  calling record hcalling := by
    dsimp only [Process.boot] at hcalling
    split at hcalling
    · simp at hcalling
    · cases hcalling
  settled _ record hrec := by cases hrec
  appending happ := absurd (boot_appending cb host) happ

section

variable (h : Heard accepts verdict p entries)

include h

theorem Heard.resting (hcalling : p.pipeline.calling = none)
    (hhealthy : p.host.node.healthy = true) : ∀ rec ∈ entries, accepts rec.2 := by
  intro rec hrec
  refine (h.settled hhealthy rec hrec).resolve_left ?_
  simp [hcalling]

theorem Heard.completeDelivery {inFlight : Bool}
    (hpipe : p.pipeline = .delivering purpose [] inFlight) :
    Heard accepts verdict (p.completeDelivery cfg purpose).1 entries := by
  have hrests := h.resting (by rw [hpipe]; cases inFlight <;> rfl)
  have hon : ∀ pipeline : Pipeline, pipeline.calling = none →
      (pipeline.appending ≠ none → p.pipeline.appending ≠ none) →
      Heard accepts verdict { p with pipeline } entries := by
    intro pipeline hcalling happ
    refine ⟨fun record hrec => ?_, ?_, ?_⟩
    · exact absurd (hcalling.symm.trans hrec) (by simp)
    · exact fun hhealthy record hrec => .inr (hrests hhealthy record hrec)
    · exact fun hsome => h.appending (happ hsome)
  unfold Process.completeDelivery
  cases purpose with
  | replay =>
    dsimp only
    split
    · exact hon _ (calling_delivering_false _ _) fun hnone => absurd rfl hnone
    · exact hon _ rfl fun hnone => absurd rfl hnone
  | catchUp | reply => exact hon _ rfl fun hnone => absurd rfl hnone
  | append =>
    refine hon _ rfl fun _ => ?_
    rw [hpipe]
    exact Option.some_ne_none _

variable (hup : p.host.node.applyCb = true)

include hup

/-- The service says what the next callback returns. -/
theorem Heard.callBack (hpipe : p.pipeline = .delivering purpose ((index, entry) :: rest) false)
    (hacc : .applied index entry ∈ (p.callBack purpose index entry rest).2 →
      verdict' = .accepted → accepts entry) :
    Heard accepts verdict' (p.callBack purpose index entry rest).1
      ((p.callBack purpose index entry rest).2.foldl noteEntry entries) := by
  have hrests := h.resting (by rw [hpipe]; rfl)
  rcases callBack_cases purpose index entry rest p with ⟨_, hcase⟩ | ⟨_, hcase⟩
  · have hsilent : (p.abandonDelivery purpose).2.foldl noteEntry entries = entries := by
      cases purpose <;> rfl
    rw [hcase, hsilent]
    exact .abandon purpose hrests
  · rw [hcase, if_pos hup] at hacc ⊢
    refine ⟨?_, ?_, ?_⟩
    · intro rec hcalling
      cases hcalling
      exact ⟨mem_append_right _ (mem_singleton_self _), hacc (mem_singleton_self _)⟩
    · intro hhealthy rec hrec
      rcases mem_append.mp hrec with hold | hnew
      · exact .inr (hrests hhealthy rec hold)
      · exact .inl (congrArg some (mem_singleton.mp hnew).symm)
    · intro happ pos hpos hposition
      have hold : p.pipeline.appending ≠ none := by
        rwa [hpipe, appending_delivering purpose _ ((index, entry) :: rest) _ true]
      obtain ⟨found, hfind, hok⟩ := h.appending hold pos hpos hposition
      exact ⟨found, mem_append_left _ hfind, hok⟩

theorem Heard.callbackDone
    (hpipe : p.pipeline = .delivering purpose ((index, entry) :: rest) true) :
    Heard accepts verdict (p.callbackDone lib cfg purpose index rest verdict).1 entries := by
  have hcalled := h.calling (index, entry) (by rw [hpipe]; rfl)
  -- once the verdict is in, a healthy node has no open entry
  have hrests : verdict = .accepted → p.host.node.healthy = true →
      ∀ rec ∈ entries, accepts rec.2 := by
    intro hverdict hhealthy rec hrec
    rcases h.settled hhealthy rec hrec with hcalling | hok
    · exact (h.calling rec hcalling).2 hverdict
    · exact hok
  unfold Process.callbackDone
  rw [if_pos hup]
  dsimp only
  split
  · refine ⟨fun rec hcalling => by simp at hcalling, ?_, fun happ => ?_⟩
    · exact fun hhealthy rec hrec => .inr (hrests rfl hhealthy rec hrec)
    · exact absurd rfl happ
  next hpurpose =>
    generalize hmark : markApplied lib cfg index p.host = result
    obtain ⟨host, ok⟩ := result
    rcases markApplied_cases hmark with ⟨rfl, hnext, happlied⟩ | ⟨rfl, hnext, rfl⟩ | ⟨rfl, hnot⟩
    · simp only [isNextToApply, Bool.and_eq_true, decide_eq_true_eq] at hnext
      refine ⟨fun rec hcalling => by simp at hcalling, ?_, ?_⟩
      · exact fun _ rec hrec => .inr (hrests rfl hnext.1 rec hrec)
      · intro happ pos hpos hposition
        dsimp only at hposition
        by_cases hlast : pos = index
        · exact ⟨entry, hlast ▸ hcalled.1, hcalled.2 rfl⟩
        · refine h.appending ?_ pos hpos (by omega)
          rwa [hpipe, appending_delivering purpose _ rest _ false]
    · exact .abandon purpose (hrests rfl)
    · exact .abandon purpose fun hhealthy => by simp [hnot] at hhealthy
  · exact .abandon purpose fun hhealthy => by simp [failApply] at hhealthy

variable (horder : InOrder p entries)

include horder

theorem heard_of_inOrder (hhealthy : p.host.node.healthy = true) (hfree : p.pipeline = .free)
    (hpos : 1 ≤ index) (hidx : index ≤ p.host.node.lastApplied) :
    ∃ entry, (index, entry) ∈ entries ∧ accepts entry := by
  have hprog := horder.progress hup
  rw [hfree] at hprog
  have hlen : entries.length = p.host.node.lastApplied := hprog hhealthy
  have hmem : index ∈ entries.map Prod.fst := by
    rw [horder.consecutive, mem_range'_1]
    omega
  obtain ⟨⟨_, entry⟩, hentry, rfl⟩ := mem_map.mp hmem
  exact ⟨entry, hentry, h.resting (by rw [hfree]; rfl) hhealthy _ hentry⟩

theorem Heard.moves (hadv : Advances lib cfg p action next)
    (hdeliv : action.delivers = false) : Heard accepts verdict next.1 entries := by
  have hmoves := moves_of_advances hadv hdeliv
  have hcalling : next.1.pipeline.calling = p.pipeline.calling :=
    hmoves.congr calling_of_delivery fun purpose pending _ =>
      calling_delivering_false purpose pending
  obtain ⟨hhealthy, happlied⟩ := settled_of_advances hadv hdeliv
  refine ⟨?_, ?_, fun happ index hpos hidx => ?_⟩
  · rw [hcalling]
    exact h.calling
  · rw [hcalling]
    exact fun hafter => h.settled (hhealthy hafter)
  · -- a message is handled while no call of `append_command` is under way
    have hmsg : ∀ args, action ≠ .appendEntries args := by
      rintro args rfl
      cases hadv with
      | appendEntries _ hpipe =>
        revert happ
        unfold receiveEntries
        generalize handleAppendEntries lib cfg args p.host = result
        obtain ⟨host, reply, applied⟩ := result
        cases applied with
        | none => exact fun happ => happ (by dsimp only; rw [hpipe]; rfl)
        | some => exact fun happ => happ rfl
    rw [happlied hmsg] at hidx
    cases hmoves with
    | still hdelivery hkept => exact h.appending ((hkept.resolve_left happ) ▸ happ) index hpos hidx
    | stored =>
      cases hadv with
      | appendCommand command hpipe =>
        have hstores := (beginAppend_stored hpipe happ).1
        simp only [storesCommand, Bool.and_eq_true] at hstores
        exact heard_of_inOrder h hup horder hstores.1.1.1 hpipe hpos hidx
    | received => exact absurd rfl (hmsg _)
    | replicated hpre hold => exact h.appending (by rw [hold]; simp) index hpos hidx

theorem Heard.advance (hadv : Advances lib cfg p action next)
    (hboot : ∀ callback, action ≠ .boot callback)
    (hreturned : ∀ other, action = .callbackReturned other → other = verdict)
    (hacc : ∀ index entry, .applied index entry ∈ next.2 → verdict' = .accepted → accepts entry)
    (hverdict : (∀ index entry, .applied index entry ∉ next.2) → verdict' = verdict) :
    Heard accepts verdict' next.1 (next.2.foldl noteEntry entries) := by
  by_cases hcallback : action = .callback
  · subst hcallback
    cases hadv with
    | @callback purpose index entry rest hpipe => exact h.callBack hup hpipe (hacc index entry)
  · obtain ⟨hbooted, hsilent⟩ := silent_of_advances hadv hboot hcallback
    have hentries : next.2.foldl noteEntry entries = entries := by
      refine foldl_eq_self fun output hout => ?_
      cases output with
      | booted => exact absurd hout hbooted
      | applied index entry => exact absurd hout (hsilent index entry)
      | _ => rfl
    rw [hverdict hsilent, hentries]
    cases hdeliv : action.delivers with
    | false => exact h.moves hup horder hadv hdeliv
    | true =>
      cases hadv with
      | boot callback => exact absurd rfl (hboot callback)
      | callback => exact absurd rfl hcallback
      | callbackReturned other hpipe =>
        rw [hreturned other rfl]
        exact h.callbackDone hup hpipe
      | finishDelivery hpipe => exact h.completeDelivery hpipe
      | _ => cases hdeliv

end

/-- `append_command` keeps its command and the log until it returns. -/
theorem appending_of_advances (hadv : Advances lib cfg p action next)
    {call : Nat × Bytes} (hcall : p.pipeline.appending = some call) :
    next.1.pipeline.appending = none ∨
      next.1.pipeline.appending = some call ∧ next.1.host.node.log = p.host.node.log := by
  have hbusy : p.pipeline ≠ .free := by
    intro hfree
    rw [hfree] at hcall
    cases hcall
  by_cases hboot : ∃ callback, action = .boot callback
  · obtain ⟨callback, rfl⟩ := hboot
    cases hadv with
    | boot callback => exact .inl (boot_appending callback _)
  have hlog : next.1.host.node.log = p.host.node.log := by
    have hsteps := hostSteps_of_advances hadv fun callback h => hboot ⟨callback, h⟩
    refine (hsteps.log (p.scope_message ?_) (p.scope_command ?_)).1
    · rintro args rfl
      cases hadv with
      | appendEntries _ hpipe => exact hbusy hpipe
    · rintro command rfl
      cases hadv with
      | appendCommand _ hpipe => exact hbusy hpipe
  suffices hkept : next.1.pipeline.appending = none ∨
      next.1.pipeline.appending = p.pipeline.appending by
    rw [hcall] at hkept
    exact hkept.imp_right fun heq => ⟨heq, hlog⟩
  cases hdeliv : action.delivers with
  | false =>
    have hmoves := moves_of_advances hadv hdeliv
    cases hmoves with
    | still hdelivery hkept => exact hkept
    | stored hfree hdelivery hstored | received hfree hafter => exact absurd hfree hbusy
    | replicated hpre hold hafter =>
      rw [hafter, hold]
      exact .inr rfl
  | true =>
    cases hadv with
    | boot callback => exact absurd ⟨callback, rfl⟩ hboot
    | @callback purpose index entry rest hpipe =>
      rcases callBack_cases purpose index entry rest p with ⟨_, hcase⟩ | ⟨_, hcase⟩
      · rw [hcase]
        exact .inl (abandonDelivery_appending purpose p)
      · rw [hcase, hpipe]
        exact .inr (appending_delivering _ _ _ _ _)
    | @callbackReturned purpose index entry rest verdict hpipe =>
      rw [hpipe]
      dsimp only [Process.callbackDone]
      split
      · exact .inl rfl
      · generalize markApplied lib cfg index p.host = result
        obtain ⟨host, ok⟩ := result
        cases ok with
        | true => exact .inr (appending_delivering _ _ _ _ _)
        | false => exact .inl (abandonDelivery_appending _ _)
      · exact .inl (abandonDelivery_appending _ _)
    | @finishDelivery purpose inFlight hpipe =>
      rw [hpipe]
      cases purpose with
      | replay =>
        left
        dsimp only [Process.completeDelivery]
        split <;> rfl
      | _ => exact .inr rfl
    | _ => cases hdeliv

end Sections

/-! ## Services -/

section Services

variable {S : Type} {lib : Libraries} {setup : ClusterConfig} {machine : StateMachine S}
  {event : Event} {s s' : ServiceCluster S} {accepts : LogEntry → Prop}

/-- Only a boot and a callback change what the callback sees. -/
theorem entriesSince_of_silent {c c' : Cluster} (hstep : Cluster.step lib setup event c = some c')
    (hboot : (event.node, .booted) ∉ newOutputs c c')
    (happlied : ∀ index entry, (event.node, .applied index entry) ∉ newOutputs c c') (v : NodeId) :
    entriesSince c'.history v = entriesSince c.history v := by
  obtain ⟨_, _, p, outputs, _, rfl⟩ := step_eq_some hstep
  simp only [newOutputs_putOut, mem_map, Prod.mk.injEq, true_and, exists_eq_right] at hboot happlied
  dsimp only
  by_cases hv : v = event.node
  · subst hv
    rw [entriesSince_putOut]
    refine foldl_eq_self fun output hout => ?_
    cases output with
    | booted => exact absurd hout hboot
    | applied index entry => exact absurd hout (happlied index entry)
    | _ => rfl
  · exact entriesSince_putOut_of_ne hv _ _

/-- What only the callback changes is what it made of the entries since the start. -/
theorem ServiceCluster.Steps.follows {Q : Type} {start : Q} {next : Q → Nat × LogEntry → Q}
    (hsteps : Steps lib setup machine event s s') (part : S → Q)
    (hrestart : ∀ svc, part (machine.restart svc) = start)
    (happly : ∀ index entry svc,
      part (machine.apply entry svc).1 = next (part svc) (index, entry))
    (h : ∀ v, part (s.services v) = (entriesSince s.raft.history v).foldl next start) (v : NodeId) :
    part (s'.services v) = (entriesSince s'.raft.history v).foldl next start := by
  have hentries : ∀ output, newOutputs s.raft s'.raft = [(event.node, output)] →
      entriesSince s'.raft.history event.node =
        noteEntry (entriesSince s.raft.history event.node) output := by
    intro output hout
    obtain ⟨raft, _, _⟩ := s'
    obtain ⟨_, _, p, outputs, _, rfl⟩ := step_eq_some hsteps.raft
    rw [newOutputs_putOut] at hout
    obtain ⟨other, rfl, heq⟩ := map_eq_singleton_iff.mp hout
    cases heq
    exact entriesSince_putOut _ _ _
  have hother : v ≠ event.node →
      entriesSince s'.raft.history v = entriesSince s.raft.history v := by
    intro hv
    obtain ⟨raft, _, _⟩ := s'
    obtain ⟨_, _, p, outputs, _, rfl⟩ := step_eq_some hsteps.raft
    exact entriesSince_putOut_of_ne hv _ _
  cases hsteps.served with
  | same hboot happlied hservices =>
    rw [hservices, entriesSince_of_silent hsteps.raft hboot happlied, h]
  | restarted hout hservices =>
    rw [hservices]
    by_cases hv : v = event.node
    · subst hv
      rw [update_self, hrestart, hentries _ hout]
      rfl
    · rw [update_of_ne hv, hother hv, h]
  | applied index entry hout hservices =>
    rw [hservices]
    by_cases hv : v = event.node
    · subst hv
      rw [update_self, happly index, hentries _ hout, noteEntry, foldl_append, ← h]
      rfl
    · rw [update_of_ne hv, hother hv, h]

def ServiceCluster.AllHeard (setup : ClusterConfig) (accepts : LogEntry → Prop)
    (s : ServiceCluster S) : Prop :=
  ∀ v ∈ setup.peers, s.isUp v = true →
    Heard accepts (s.verdicts v) (s.raft.procs v) (entriesSince s.raft.history v)

namespace ServiceCluster

variable (h : s.AllHeard setup accepts) (hrun : Cluster.Run lib setup (orderlyStep setup) s.raft)

include h hrun

theorem AllHeard.of_step (hraft : Cluster.step lib setup event s.raft = some s'.raft)
    (hother : ∀ v, v ≠ event.node → s'.verdicts v = s.verdicts v)
    (hup : event.action = .boot true ∨ s.isUp event.node = true)
    (hreturned : ∀ verdict, event.action = .callbackReturned verdict →
      verdict = s.verdicts event.node)
    (hacc : ∀ index entry, (event.node, .applied index entry) ∈ newOutputs s.raft s'.raft →
      s'.verdicts event.node = .accepted → accepts entry)
    (hverdict : (∀ index entry, (event.node, .applied index entry) ∉ newOutputs s.raft s'.raft) →
      s'.verdicts event.node = s.verdicts event.node) : s'.AllHeard setup accepts := by
  obtain ⟨raft, services, verdicts⟩ := s'
  obtain ⟨hnode, _, p, outputs, hadvance, rfl⟩ := step_eq_some hraft
  simp only [newOutputs_putOut] at hacc hverdict
  have hmem : ∀ output, (event.node, output) ∈ (outputs.map fun output => (event.node, output)) ↔
      output ∈ outputs := by simp
  simp only [hmem] at hacc hverdict
  have hadv := advances_of_advance hadvance
  intro v hv hvup
  dsimp only
  by_cases hvnode : v = event.node
  · subst hvnode
    rw [entriesSince_putOut, update_self]
    by_cases hboot : ∃ cb, event.action = .boot cb
    · obtain ⟨cb, hboot⟩ := hboot
      rw [hboot] at hadv
      cases hadv with
      | boot => exact .boot cb _
    · have hup := hup.resolve_left fun hboot' => hboot ⟨true, hboot'⟩
      have hheard := h event.node hv hup
      have horder := run_inOrder hrun hv
      have hheard' : Heard accepts (s.verdicts event.node)
          ((s.raft.procs event.node).withIo event.io) (entriesSince s.raft.history event.node) :=
        ⟨hheard.calling, hheard.settled, hheard.appending⟩
      exact hheard'.advance hup ⟨horder.consecutive, horder.silent, horder.progress⟩ hadv
        (fun cb hboot' => hboot ⟨cb, hboot'⟩) hreturned hacc hverdict
  · have hvup : s.isUp v = true := by
      unfold isUp at hvup ⊢
      dsimp only at hvup
      rwa [update_of_ne hvnode] at hvup
    rw [entriesSince_putOut_of_ne hvnode, update_of_ne hvnode,
      show verdicts v = s.verdicts v from hother v hvnode]
    exact h v hv hvup

/-- A step whose callback accepts only the acceptable. -/
theorem AllHeard.steps
    (hmachine : ∀ entry svc, (machine.apply entry svc).2 = .accepted → accepts entry)
    (hsteps : Steps lib setup machine event s s') : s'.AllHeard setup accepts := by
  have hother (hverdicts : s'.verdicts = s.verdicts) (v : NodeId) (_ : v ≠ event.node) :
      s'.verdicts v = s.verdicts v := by rw [hverdicts]
  cases hsteps.served with
  | same _ hsilent hservices hverdicts =>
    exact h.of_step hrun hsteps.raft (hother hverdicts) hsteps.up hsteps.verdict
      (fun index entry hmem => absurd hmem (hsilent index entry)) fun _ => by rw [hverdicts]
  | restarted hbooted hservices hverdicts =>
    refine h.of_step hrun hsteps.raft (hother hverdicts) hsteps.up hsteps.verdict
      (fun index entry hmem => ?_) fun _ => by rw [hverdicts]
    rw [hbooted] at hmem
    cases (Prod.mk.inj (mem_singleton.mp hmem)).2
  | applied first head happ hservices hverdicts =>
    refine h.of_step hrun hsteps.raft (fun v hv => ?_) hsteps.up hsteps.verdict
      (fun index entry hmem haccepted => ?_) fun hnone => ?_
    · rw [hverdicts, update_of_ne hv]
    · rw [happ] at hmem
      obtain ⟨rfl, rfl⟩ := Output.applied.inj (Prod.mk.inj (mem_singleton.mp hmem)).2
      rw [hverdicts, update_self] at haccepted
      exact hmachine _ _ haccepted
    · exact absurd (happ ▸ mem_singleton_self _) (hnone first head)

variable {v : NodeId} {command : Bytes}

theorem AllHeard.appends {io : List IoOutcome} (happends : Appends lib setup v command io s s') :
    s'.AllHeard setup accepts := by
  refine h.of_step hrun happends.raft ?_ (.inr happends.up) ?_ ?_ ?_
  · exact fun _ _ => by rw [happends.verdicts]
  · nofun
  · intro index entry hmem
    obtain ⟨_, _, hadv, hout, _⟩ := advances_of_mem_newOutputs happends.raft hmem
    cases emits_of_mem hadv hout
  · exact fun _ => by rw [happends.verdicts]

omit hrun in
/-- After success the callback has accepted the entry. -/
theorem AllHeard.of_appended (hrun : Cluster.Run lib setup (appendStep setup) s.raft) {c : Cluster}
    (hstep : Cluster.step lib setup event s.raft = some c) (hup : s.isUp event.node = true)
    {index : Nat} (hout : (v, .appended index command) ∈ newOutputs s.raft c) :
    ∃ entry, (v, .applied index entry) ∈ s.raft.history ∧ accepts entry ∧
      (s.raft.procs v).host.node.log[index - 1]? = some entry := by
  obtain ⟨⟨beat, hpipeline⟩, hpushed, hcommitted, happlied⟩ := beating_of_appended hrun hstep hout
  obtain rfl := (advances_of_mem_newOutputs hstep hout).1
  obtain ⟨hv, _⟩ := step_eq_some hstep
  obtain ⟨entry, hentry, haccepts⟩ := (h event.node hv hup).appending
    (by rw [hpipeline]; exact Option.some_ne_none _) index hpushed.pos happlied
  have hhistory := mem_history_of_entriesSince hentry
  refine ⟨entry, hhistory, haccepts, ?_⟩
  -- the entry that was applied and the one in the log are committed at the same index
  obtain ⟨a, hrel⟩ := run_append_orderly hrun
  obtain ⟨stored, hstored, _⟩ := Option.map_eq_some_iff.mp hpushed.entry
  have hsafe := ((hrel.procs _ hv).host.commitSafe trivial).committedEntry hpushed.pos hcommitted
    hstored
  rw [hstored, hsafe.unique hrel.inv ((hrel.network _ _ hhistory).2 trivial)]

end ServiceCluster

end Services

end BoostGateway.Raft
