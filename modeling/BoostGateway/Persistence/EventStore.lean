import BoostGateway.Json
import BoostGateway.Runs

/-!
# The event store

`FileEventStore` keeps its events as JSON lines of a file, `InMemoryEventStore` in a list. The
counters of the first one start anew when it is opened, and its `read_by_type` does not read the
trace id. Otherwise the two agree (`stores_agree`). Strings are UTF-8, so that a line is parsed as
the document that was written.
-/

namespace BoostGateway.Persistence

open List

structure EventRecord where
  sequence : UInt64 := 0
  eventType : Bytes
  aggregateId : Bytes
  payload : Bytes := []
  timestampMs : UInt64 := 0
  traceId : UInt64 := 0

structure InMemoryEventStore where
  events : List EventRecord := []
  nextSeq : UInt64 := 1

namespace InMemoryEventStore

def append (event : EventRecord) (m : InMemoryEventStore) : InMemoryEventStore :=
  { events := m.events ++ [{ event with sequence := m.nextSeq }], nextSeq := m.nextSeq + 1 }

def read (aggregateId : Bytes) (fromSequence maxCount : UInt64) (m : InMemoryEventStore) :
    List EventRecord :=
  (m.events.filter fun e => e.aggregateId = aggregateId ∧ fromSequence ≤ e.sequence).take
    maxCount.toNat

def latestSequence (aggregateId : Bytes) (m : InMemoryEventStore) : UInt64 :=
  m.events.foldl (fun maxSeq e =>
    if e.aggregateId = aggregateId ∧ maxSeq < e.sequence then e.sequence else maxSeq) 0

def readByType (eventType : Bytes) (maxCount : UInt64) (m : InMemoryEventStore) :
    List EventRecord :=
  (m.events.filter (·.eventType = eventType)).take maxCount.toNat

def totalEvents (m : InMemoryEventStore) : UInt64 := .ofNat m.events.length

end InMemoryEventStore

structure FileEventStore where
  documents : List Json := []
  nextSequence : UInt64 := 1
  total : UInt64 := 0

def EventRecord.stamped (sequence now : UInt64) (event : EventRecord) : EventRecord :=
  { event with
    sequence
    timestampMs := if event.timestampMs = 0 then now else event.timestampMs }

def eventDocument (event : EventRecord) : Json :=
  Json.ofFields [("seq", .unsigned event.sequence.toNat), ("type", .string event.eventType),
    ("aggregate_id", .string event.aggregateId), ("payload", .string event.payload),
    ("ts", .unsigned event.timestampMs.toNat), ("trace_id", .unsigned event.traceId.toNat)]

def textOf (key : String) (doc : Json) : Bytes := ((doc.field? key).bind Json.string?).getD []

def numberOf (key : String) (doc : Json) : UInt64 :=
  .ofNat (((doc.field? key).bind Json.unsigned?).getD 0)

def recordOf (doc : Json) : EventRecord where
  sequence := numberOf "seq" doc
  eventType := textOf "type" doc
  aggregateId := textOf "aggregate_id" doc
  payload := textOf "payload" doc
  timestampMs := numberOf "ts" doc

namespace FileEventStore

/-- `append`, at a time, and whether the file can be opened. -/
def append (event : EventRecord) (now : UInt64) (opened : Bool) (s : FileEventStore) :
    FileEventStore :=
  let doc := eventDocument (event.stamped s.nextSequence now)
  let s := { s with nextSequence := s.nextSequence + 1 }
  if !opened then s else { s with documents := s.documents ++ [doc], total := s.total + 1 }

def read (aggregateId : Bytes) (fromSequence maxCount : UInt64) (s : FileEventStore) :
    List EventRecord :=
  ((s.documents.filter fun doc => textOf "aggregate_id" doc = aggregateId ∧
    ¬ numberOf "seq" doc < fromSequence).take maxCount.toNat).map fun doc =>
      { recordOf doc with traceId := numberOf "trace_id" doc }

def latestSequence (aggregateId : Bytes) (s : FileEventStore) : UInt64 :=
  s.documents.foldl (fun maxSeq doc =>
    if textOf "aggregate_id" doc = aggregateId ∧ maxSeq < numberOf "seq" doc then
      numberOf "seq" doc
    else maxSeq) 0

def readByType (eventType : Bytes) (maxCount : UInt64) (s : FileEventStore) : List EventRecord :=
  ((s.documents.filter (textOf "type" · = eventType)).take maxCount.toNat).map recordOf

end FileEventStore

/-! ## Both stores -/

structure EventStores where
  file : FileEventStore := {}
  memory : InMemoryEventStore := {}

inductive EventStoreCall where
  | append (event : EventRecord) (now : UInt64) (opened : Bool)
  /-- The store is closed, and a new one is opened on its directory. -/
  | reopen

def EventRecord.untimed (event : EventRecord) : EventRecord := { event with timestampMs := 0 }

namespace EventStores

def step (s : EventStores) : EventStoreCall → EventStores
  | .append event now opened =>
    { file := s.file.append event now opened, memory := s.memory.append event }
  | .reopen => { s with file := { documents := s.file.documents } }

/-- The numbers rise, and the stores answer alike up to timestamps. -/
structure Agree (s : EventStores) : Prop where
  rising : (s.file.documents.map (numberOf "seq")).Pairwise (· < ·)
  read : ∀ aggregateId fromSequence maxCount,
    (s.file.read aggregateId fromSequence maxCount).map EventRecord.untimed =
      (s.memory.read aggregateId fromSequence maxCount).map EventRecord.untimed
  latestSequence : ∀ aggregateId,
    s.file.latestSequence aggregateId = s.memory.latestSequence aggregateId
  readByType : ∀ eventType maxCount,
    (s.file.readByType eventType maxCount).map EventRecord.untimed =
      (s.memory.readByType eventType maxCount).map EventRecord.untimed
  totalEvents : s.file.total = s.memory.totalEvents

/-- A reopened store is empty, the file can be opened, the counter does not wrap, and there is no
trace id. -/
def Kept (s : EventStores) : EventStoreCall → Prop
  | .append event _ opened => opened = true ∧ event.traceId = 0 ∧ s.file.nextSequence + 1 ≠ 0
  | .reopen => s.file.documents = []

/-- The file holds the other store's events. -/
structure Mirrors (s : EventStores) : Prop where
  events : ∃ stored : List EventRecord, s.file.documents = stored.map eventDocument ∧
    stored.map EventRecord.untimed = s.memory.events.map EventRecord.untimed
  untraced : ∀ event ∈ s.memory.events, event.traceId = 0
  rising : (s.memory.events.map (·.sequence) ++ [s.memory.nextSeq]).Pairwise (· < ·)
  nextSequence : s.file.nextSequence = s.memory.nextSeq
  total : s.file.total = s.memory.totalEvents
  empty : s.file.documents = [] → s.memory = {}

@[simp]
theorem numberOf_eventDocument (event : EventRecord) :
    numberOf "seq" (eventDocument event) = event.sequence ∧
      numberOf "ts" (eventDocument event) = event.timestampMs ∧
      numberOf "trace_id" (eventDocument event) = event.traceId := by
  simp [numberOf, eventDocument, Json.ofFields, Json.insertField, -String.lt_iff_ltb, Json.field?,
    Json.fields, lookup_cons, Json.unsigned?]

@[simp]
theorem textOf_eventDocument (event : EventRecord) :
    textOf "type" (eventDocument event) = event.eventType ∧
      textOf "aggregate_id" (eventDocument event) = event.aggregateId ∧
      textOf "payload" (eventDocument event) = event.payload := by
  simp [textOf, eventDocument, Json.ofFields, Json.insertField, -String.lt_iff_ltb, Json.field?,
    Json.fields, lookup_cons, Json.string?]

variable {xs ys : List EventRecord} {s : EventStores}

theorem take_filter_congr (h : xs.map EventRecord.untimed = ys.map EventRecord.untimed)
    {p : EventRecord → Bool} (hp : ∀ event, p event.untimed = p event) (n : Nat) :
    ((xs.filter p).take n).map EventRecord.untimed =
      ((ys.filter p).take n).map EventRecord.untimed := by
  have hfilter (zs : List EventRecord) :
      (zs.filter p).map EventRecord.untimed = (zs.map EventRecord.untimed).filter p := by
    rw [filter_map]
    exact congrArg _ (filter_congr fun event _ => (hp event).symm)
  rw [map_take, map_take, hfilter, hfilter, h]

theorem Mirrors.agree (h : s.Mirrors) : s.Agree := by
  obtain ⟨stored, hstored, hsame⟩ := h.events
  refine ⟨?_, fun aggregateId fromSequence maxCount => ?_, fun aggregateId => ?_,
    fun eventType maxCount => ?_, h.total⟩
  · have hsequences := congrArg (List.map (·.sequence)) hsame
    rw [map_map, map_map] at hsequences
    rw [hstored, map_map]
    simpa [Function.comp_def] using hsequences.symm ▸ (pairwise_append.mp h.rising).1
  · have hread := take_filter_congr hsame (p := fun e => e.aggregateId = aggregateId ∧
      fromSequence ≤ e.sequence) (fun _ => rfl) maxCount.toNat
    simpa [FileEventStore.read, InMemoryEventStore.read, hstored, filter_map, recordOf,
      ← map_take, Function.comp_def] using hread
  · have hfold := congrArg (List.foldl (fun (maxSeq : UInt64) e =>
      if e.aggregateId = aggregateId ∧ maxSeq < e.sequence then e.sequence else maxSeq) 0) hsame
    rw [foldl_map, foldl_map] at hfold
    simp only [FileEventStore.latestSequence, hstored, foldl_map, numberOf_eventDocument,
      textOf_eventDocument]
    exact hfold
  · have huntraced : ∀ event ∈ (s.memory.events.filter (·.eventType = eventType)).take
        maxCount.toNat, { event.untimed with traceId := 0 } = event.untimed := by
      intro event hevent
      have htrace := h.untraced event (mem_of_mem_filter (mem_of_mem_take hevent))
      simp [EventRecord.untimed, htrace]
    have hread := congrArg (List.map fun event => { event with traceId := 0 })
      (take_filter_congr hsame (p := (·.eventType = eventType)) (fun _ => rfl) maxCount.toNat)
    rw [InMemoryEventStore.readByType, ← map_congr_left huntraced]
    simpa [FileEventStore.readByType, hstored, filter_map, ← map_take, recordOf,
      Function.comp_def, EventRecord.untimed] using hread

theorem Mirrors.append (h : s.Mirrors) {event : EventRecord} (now : UInt64)
    (htrace : event.traceId = 0) (hnext : s.file.nextSequence + 1 ≠ 0) :
    (s.step (.append event now true)).Mirrors := by
  obtain ⟨stored, hstored, hsame⟩ := h.events
  have hnew : (event.stamped s.file.nextSequence now).untimed =
      { event with sequence := s.memory.nextSeq }.untimed := by
    rw [h.nextSequence]
    rfl
  have hlt : s.memory.nextSeq < s.memory.nextSeq + 1 := by
    rw [h.nextSequence] at hnext
    grind
  refine ⟨⟨stored ++ [event.stamped s.file.nextSequence now], ?_, ?_⟩, ?_, ?_, ?_, ?_, ?_⟩
  · simp [step, FileEventStore.append, hstored]
  · simp [step, InMemoryEventStore.append, hsame, hnew]
  · exact forall_mem_append.mpr ⟨h.untraced, by simpa using htrace⟩
  · have hbelow := (pairwise_append.mp h.rising).2.2
    simp only [step, InMemoryEventStore.append, map_append, map_cons, map_nil]
    refine pairwise_append.mpr ⟨h.rising, by simp, fun a ha b hb => ?_⟩
    rw [mem_singleton.mp hb]
    rcases mem_append.mp ha with hold | hlast
    · exact UInt64.lt_trans (hbelow a hold _ mem_cons_self) hlt
    · exact mem_singleton.mp hlast ▸ hlt
  · exact congrArg (· + 1) h.nextSequence
  · simp [step, FileEventStore.append, h.total, InMemoryEventStore.totalEvents,
      InMemoryEventStore.append]
  · simp [step, FileEventStore.append]

/-- In every run in which the store is not opened again once it holds an event, its file can be
opened, its counter does not wrap around and no event has a trace id, the stored events have rising
sequence numbers and the store answers as the one in memory. -/
theorem stores_agree (calls : List EventStoreCall) (h : Along step Kept {} calls) :
    Always step Agree {} calls := by
  have hinit : Mirrors {} := ⟨⟨[], rfl, rfl⟩, nofun, by simp, rfl, rfl, fun _ => rfl⟩
  refine h.always (fun s call hs hcall => ?_) (fun _ hs => hs.agree) hinit
  cases call with
  | append event now =>
    obtain ⟨rfl, htrace, hnext⟩ := hcall
    exact hs.append now htrace hnext
  | reopen =>
    have hempty : s.step .reopen = {} := by rw [step, hs.empty hcall, hcall]
    exact hempty ▸ hinit

def roomEvent : EventRecord := { eventType := ascii "room.created", aggregateId := ascii "r" }

theorem stores_agree_roomEvents :
    Always step Agree {} [.reopen, .append roomEvent 7 true, .append roomEvent 9 true] :=
  stores_agree _ (by simp only [along_cons, along_nil, Kept, and_true]; decide +kernel)

/-- The store is opened again, and has forgotten how many events it holds. -/
theorem reopened_store_differs : ¬ Always step Agree {} [.append roomEvent 7 true, .reopen] := by
  intro h
  exact absurd (h _ [] (append_nil _).symm).totalEvents (by decide)

end EventStores

end BoostGateway.Persistence
