import BoostGateway.Persistence.WriteBehind
import BoostGateway.Raft.Reference

/-!
# The replay storage

`ReplayStorage` writes replays by tasks of the write-behind engine. The file name is made from the
battle id of a client without a check, so the file lies in the storage directory exactly if the walk
along the id, up to its first NUL, ends below it (`replay_file_inside_iff`). A write that fails goes
behind later writes of the same file, so the last document wins if that never happens
(`last_replay_wins`).
-/

namespace BoostGateway.Persistence

/-! ## Paths

The operations of `std::filesystem::path` on a POSIX system. -/

def isAbsolute (path : Bytes) : Bool := path.head? == some 47

def components (path : Bytes) : List Bytes :=
  (path.splitOnP (· == 47)).filter fun name => name ≠ [] ∧ name ≠ ascii "."

def append (dir path : Bytes) : Bytes :=
  if isAbsolute path then path
  else if dir = [] ∨ dir.getLast? = some 47 then dir ++ path
  else dir ++ 47 :: path

def follow (absolute : Bool) (names : List Bytes) (name : Bytes) : List Bytes :=
  if name ≠ ascii ".." then names ++ [name]
  else if names = [] then if absolute then [] else [name]
  else if names.getLast? = some (ascii "..") then names ++ [name]
  else names.dropLast

def walk (absolute : Bool) (start : List Bytes) (path : Bytes) : List Bytes :=
  (components path).foldl (follow absolute) start

def lexicallyNormal (path : Bytes) : Bool × List Bytes :=
  (isAbsolute path, walk (isAbsolute path) [] path)

/-- The directory is a proper prefix of the path. -/
def Inside (dir path : Bytes) : Prop := (lexicallyNormal path).1 = (lexicallyNormal dir).1 ∧
    (lexicallyNormal dir).2 <+: (lexicallyNormal path).2 ∧
    (lexicallyNormal dir).2 ≠ (lexicallyNormal path).2

def replayPath (storageDir instanceId : Bytes) : Bytes :=
  append storageDir (instanceId ++ ascii ".json")

def cString (path : Bytes) : Bytes := path.takeWhile (· ≠ 0)

/-- The file name leads below the storage directory. -/
def Confined (storageDir instanceId : Bytes) : Prop :=
  let names := (lexicallyNormal storageDir).2
  let absolute := isAbsolute instanceId
  let last := walk (isAbsolute storageDir) (if absolute then [] else names)
    (cString (instanceId ++ ascii ".json"))
  (absolute = true → isAbsolute storageDir = true) ∧ names <+: last ∧ names ≠ last

/-- The gateway's payload for the replay-load command. -/
def replayLoadPayload (lib : Libraries) (body : Bytes) : Option Bytes :=
  if body = [] then none else (lib.dump (.ofFields [("battle_id", .string body)])).toOption

/-- The path that `handle_replay_load` opens. -/
def handleReplayLoad (lib : Libraries) (storageDir payload : Bytes) : Option Bytes := do
  let document ← (lib.parse payload).toOption
  let battleId ← (document.field? "battle_id").bind Json.string?
  if battleId = [] then none else some (cString (replayPath storageDir battleId))

section Paths

variable {dir path instanceId : Bytes}

theorem components_append_cons (dir path : Bytes) :
    components (dir ++ 47 :: path) = components dir ++ components path := by
  unfold components
  rw [List.splitOnP_append_cons _ _ (by decide), List.filter_append]

theorem components_append (h : isAbsolute path = false) :
    components (append dir path) = components dir ++ components path := by
  unfold append
  rw [if_neg (by simp [h])]
  split
  next hdir =>
    rcases hdir with rfl | hlast
    · simp [components]
    · obtain ⟨dir, rfl⟩ := List.getLast?_eq_some_iff.mp hlast
      rw [List.append_assoc, List.singleton_append, components_append_cons, components_append_cons]
      simp [components]
  · exact components_append_cons dir path

theorem isAbsolute_append (h : isAbsolute path = false) :
    isAbsolute (append dir path) = isAbsolute dir := by
  unfold append
  rw [if_neg (by simp [h])]
  cases dir with
  | nil => simpa [isAbsolute] using h
  | cons => split <;> rfl

theorem cString_append (hdir : 0 ∉ dir) (path : Bytes) :
    cString (append dir path) = append dir (cString path) := by
  have htake (rest : Bytes) : (dir ++ rest).takeWhile (· ≠ 0) = dir ++ cString rest :=
    List.takeWhile_append_of_pos fun b hb => by simpa using ne_of_mem_of_not_mem hb hdir
  have habsolute : isAbsolute (cString path) = isAbsolute path := by
    cases path with
    | nil => rfl
    | cons b rest => by_cases hb : b = 0 <;> simp [cString, isAbsolute, hb]
  unfold append
  rw [habsolute]
  split_ifs
  · rfl
  · exact htake path
  · exact (htake _).trans (congrArg (dir ++ ·) (List.takeWhile_cons_of_pos (by decide)))

theorem isAbsolute_fileName (instanceId : Bytes) :
    isAbsolute (cString (instanceId ++ ascii ".json")) = isAbsolute instanceId := by
  cases instanceId with
  | nil => rfl
  | cons b rest => by_cases hb : b = 0 <;> simp [cString, isAbsolute, hb]

theorem lexicallyNormal_replayPath {storageDir : Bytes} (hdir : 0 ∉ storageDir)
    (instanceId : Bytes) : lexicallyNormal (cString (replayPath storageDir instanceId)) =
      if isAbsolute instanceId then lexicallyNormal (cString (instanceId ++ ascii ".json"))
      else (isAbsolute storageDir, walk (isAbsolute storageDir) (lexicallyNormal storageDir).2
        (cString (instanceId ++ ascii ".json"))) := by
  have hname := isAbsolute_fileName instanceId
  unfold replayPath
  rw [cString_append hdir]
  cases habsolute : isAbsolute instanceId with
  | true => simp [append, hname, habsolute]
  | false =>
    rw [habsolute] at hname
    simp [lexicallyNormal, isAbsolute_append hname, walk, components_append hname]

theorem inside_replayPath_iff {storageDir : Bytes} (hdir : 0 ∉ storageDir) (instanceId : Bytes) :
    Inside storageDir (cString (replayPath storageDir instanceId)) ↔
      Confined storageDir instanceId := by
  unfold Inside Confined
  rw [lexicallyNormal_replayPath hdir]
  cases habsolute : isAbsolute instanceId with
  | false => simp [lexicallyNormal]
  | true =>
    cases hdir : isAbsolute storageDir with
    | false | true => simp [lexicallyNormal, isAbsolute_fileName, habsolute, hdir]

theorem eq_replayPath_of_handleReplayLoad {lib : Libraries} {storageDir body : Bytes}
    (hlib : lib.Lawful)
    (h : (replayLoadPayload lib body).bind (handleReplayLoad lib storageDir) = some path) :
    path = cString (replayPath storageDir body) := by
  unfold replayLoadPayload at h
  split at h
  next hbody => cases h
  next hbody =>
    cases hdump : lib.dump (.ofFields [("battle_id", .string body)]) with
    | error =>
      rw [hdump] at h
      cases h
    | ok =>
      have hcan : (Json.ofFields [("battle_id", .string body)]).canonical = true :=
        Json.canonical_ofFields (show ["battle_id"].all Json.asciiKey = true by decide)
          (by simp [Json.canonical])
      have hparse := hlib.parse_dump _ _ hcan hdump
      rw [hdump] at h
      simpa [handleReplayLoad, hparse, Except.toOption, Json.ofFields, Json.insertField,
        Json.field?, Json.fields, Json.string?, hbody, eq_comm] using h

end Paths

instance (dir path : Bytes) : Decidable (Inside dir path) := inferInstanceAs (Decidable (_ ∧ _ ∧ _))

structure Write where
  path : Bytes
  payload : Bytes

inductive Attempt where
  | written
  /-- A directory or the file could not be opened. -/
  | notOpened
  /-- The file was opened and emptied, and only some bytes were written. -/
  | cut (length : Nat)
deriving DecidableEq

abbrev File := Bool × List Bytes

def fileOf (path : Bytes) : File := lexicallyNormal (cString path)

def Write.run (write : Write) (files : File → Option Bytes) : Attempt → File → Option Bytes
  | .written => Function.update files (fileOf write.path) (some write.payload)
  | .notOpened => files
  | .cut length =>
    Function.update files (fileOf write.path) (some (write.payload.take length))

/-- The storage, and the successful calls of `store_replay`. -/
structure ReplayStorage (δ : Type) where
  engine : Engine Write := {}
  files : File → Option Bytes := fun _ => none
  accepted : List (File × δ) := []

inductive StorageEvent (δ : Type) where
  | storeReplay (instanceId : Bytes) (document : δ) (choosesFlush : Bool)
  /-- The task that runs returns. -/
  | attempt (attempt : Attempt)
  | turn (turn : Turn)

open List ReplayStorage

section Storage

variable {δ : Type} (opts : Options) (storageDir : Bytes) (dump : δ → Except String Bytes)
  (read : Bytes → Option δ)

namespace ReplayStorage

def storeReplay (instanceId : Bytes) (document : δ) (choosesFlush : Bool)
    (s : ReplayStorage δ) : ReplayStorage δ :=
  match dump document with
  | .error _ => s
  | .ok payload =>
    let path := replayPath storageDir instanceId
    let (engine, ok) := s.engine.tryPush opts { path, payload } choosesFlush
    { s with
      engine
      accepted := s.accepted ++ if ok then [(fileOf path, document)] else [] }

def step (s : ReplayStorage δ) : StorageEvent δ → ReplayStorage δ
  | .storeReplay instanceId document choosesFlush =>
    s.storeReplay opts storageDir dump instanceId document choosesFlush
  | .attempt attempt =>
    match s.engine.worker with
    | .executing entry =>
      { s with
        engine := s.engine.finish opts (attempt = .written)
        files := entry.task.run s.files attempt }
    | _ => s
  | .turn turn => { s with engine := s.engine.turn turn }

def getReplay (s : ReplayStorage δ) (instanceId : Bytes) : Option δ :=
  (s.files (fileOf (replayPath storageDir instanceId))).bind read

def pending (s : ReplayStorage δ) (file : File) : List Write :=
  s.engine.tasks.filter fun write => fileOf write.path = file

def last (s : ReplayStorage δ) (file : File) : Option δ :=
  ((s.accepted.filter fun call => call.1 = file).getLast?).map Prod.snd

/-- After the writes, `get_replay` returns the last document. -/
def LastWins (s : ReplayStorage δ) : Prop :=
  ∀ instanceId document, s.last (fileOf (replayPath storageDir instanceId)) = some document →
    s.pending (fileOf (replayPath storageDir instanceId)) = [] →
    s.getReplay storageDir read instanceId = some document

def failing (s : ReplayStorage δ) : StorageEvent δ → Option (TaskEntry Write)
  | .attempt attempt =>
    match s.engine.worker with
    | .executing entry => if attempt = .written then none else some entry
    | _ => none
  | _ => none

/-- A task fails at most `max_retries` times. -/
def Retried (s : ReplayStorage δ) (event : StorageEvent δ) : Prop :=
  ∀ entry ∈ s.failing event, 0 < entry.retriesLeft

/-- A write fails only alone in the queue for its file. -/
def FailsAlone (s : ReplayStorage δ) (event : StorageEvent δ) : Prop :=
  ∀ entry ∈ s.failing event, ∀ other ∈ s.engine.queue,
    fileOf other.task.path ≠ fileOf entry.task.path

def upcoming (s : ReplayStorage δ) (file : File) : Option Bytes :=
  ((s.pending file).getLast?.map Write.payload).or (s.files file)

def Ordered (s : ReplayStorage δ) : Prop := ∀ file document, s.last file = some document →
    ∃ payload, dump document = .ok payload ∧ s.upcoming file = some payload

variable {s : ReplayStorage δ} {entry : TaskEntry Write} {attempt : Attempt}

/-- A failing write must be the only one of its file. -/
theorem upcoming_attempt (hwork : s.engine.worker = .executing entry)
    (hretries : attempt ≠ .written → 0 < entry.retriesLeft)
    (halone : attempt ≠ .written → ∀ other ∈ s.engine.queue,
      fileOf other.task.path ≠ fileOf entry.task.path) (file : File) :
    upcoming { s with
      engine := s.engine.finish opts (attempt = .written)
      files := entry.task.run s.files attempt } file = s.upcoming file := by
  have htasks := Engine.tasks_finish opts (attempt = .written) hwork (by simpa using hretries)
  dsimp only [upcoming, pending]
  rw [htasks]
  simp only [Engine.tasks, hwork, singleton_append, filter_append, filter_cons]
  by_cases hfile : fileOf entry.task.path = file
  · subst hfile
    by_cases hwrite : attempt = .written
    · subst hwrite
      simp [Write.run, List.getLast?_cons]
    · have hrest : (s.engine.queue.map TaskEntry.task).filter (fun write =>
          fileOf write.path = fileOf entry.task.path) = [] := by
        simpa using halone hwrite
      simp [hrest, hwrite]
  · have hfiles : entry.task.run s.files attempt file = s.files file := by
      cases attempt <;> simp [Write.run, Function.update_of_ne (Ne.symm hfile)]
    simp only [hfile, hfiles]
    split <;> simp [hfile]

variable {event : StorageEvent δ}

theorem Ordered.step (h : s.Ordered dump) (hretried : s.Retried event)
    (halone : s.FailsAlone event) : (s.step opts storageDir dump event).Ordered dump := by
  cases event with
  | storeReplay instanceId doc choosesFlush =>
    dsimp only [ReplayStorage.step, storeReplay]
    split
    · exact h
    next payload hpay =>
      intro file latest hlast
      have htasks := Engine.tasks_tryPush opts s.engine
        { path := replayPath storageDir instanceId, payload } choosesFlush
      by_cases hok : (s.engine.tryPush opts
          { path := replayPath storageDir instanceId, payload } choosesFlush).2 = true
      · by_cases hfile : fileOf (replayPath storageDir instanceId) = file
        · have hlatest : doc = latest := by simpa [last, hok, hfile] using hlast
          subst hlatest
          exact ⟨payload, hpay, by simp [upcoming, pending, htasks, hok, hfile]⟩
        · have hlast : s.last file = some latest := by simpa [last, hok, hfile] using hlast
          simpa [upcoming, pending, htasks, hok, hfile] using h file latest hlast
      · have hlast : s.last file = some latest := by simpa [last, hok] using hlast
        simpa [upcoming, pending, htasks, hok] using h file latest hlast
  | attempt attempt =>
    dsimp only [ReplayStorage.step]
    split
    next entry hwork =>
      intro file doc hlast
      have hfailing : attempt ≠ .written → entry ∈ s.failing (.attempt attempt) := by
        intro hfail
        simp [failing, hwork, hfail]
      rw [upcoming_attempt opts hwork (fun hfail => hretried entry (hfailing hfail))
        (fun hfail => halone entry (hfailing hfail))]
      exact h file doc hlast
    · exact h
  | turn =>
    intro file doc hlast
    simpa [ReplayStorage.step, upcoming, pending, Engine.tasks_turn] using h file doc hlast

theorem Ordered.lastWins (hread : ∀ doc payload, dump doc = .ok payload →
    read payload = some doc) (h : s.Ordered dump) : s.LastWins storageDir read := by
  intro instanceId doc hlast hpend
  obtain ⟨payload, hpay, hupcoming⟩ := h _ doc hlast
  simp only [upcoming, hpend, List.getLast?_nil, Option.map_none, Option.none_or] at hupcoming
  simp [getReplay, hupcoming, hread doc payload hpay]

end ReplayStorage

/-- The last document wins if no write fails more than `max_retries` times, and a write fails only
when no other write of its file is queued. -/
theorem last_replay_wins (hread : ∀ document payload, dump document = .ok payload →
    read payload = some document) (events : List (StorageEvent δ))
    (hretried : Along (step opts storageDir dump) Retried {} events)
    (halone : Along (step opts storageDir dump) FailsAlone {} events) :
    Always (step opts storageDir dump) (LastWins storageDir read) {} events := by
  have hinit : Ordered dump ({} : ReplayStorage δ) := fun file document hlast => by cases hlast
  have hboth : Along (step opts storageDir dump)
      (fun s event => s.Retried event ∧ s.FailsAlone event) {} events :=
    fun before event after hevents =>
      ⟨hretried before event after hevents, halone before event after hevents⟩
  exact hboth.always (fun _ _ h hevent => h.step opts storageDir dump hevent.1 hevent.2)
    (fun _ h => h.lastWins storageDir dump read hread) hinit

end Storage

instance {δ : Type} (s : ReplayStorage δ) (event : StorageEvent δ) : Decidable (s.Retried event) :=
  inferInstanceAs (Decidable (∀ entry ∈ _, _))

instance {δ : Type} (s : ReplayStorage δ) (event : StorageEvent δ) :
    Decidable (s.FailsAlone event) :=
  inferInstanceAs (Decidable (∀ entry ∈ _, _))

/-- The document of a replay with a number of frames. -/
def dumpFrames (totalFrames : UInt64) : Except String Bytes :=
  Raft.reference.dump (.ofFields [("total_frames", .unsigned totalFrames.toNat)])

/-- The number of frames in a document. -/
def readFrames (bytes : Bytes) : Option UInt64 := do
  let document ← (Raft.reference.parse bytes).toOption
  ((document.field? "total_frames").bind Json.unsigned?).map UInt64.ofNat

theorem readFrames_dumpFrames {totalFrames : UInt64} {payload : Bytes}
    (h : dumpFrames totalFrames = .ok payload) : readFrames payload = some totalFrames := by
  have hcan : (Json.ofFields [("total_frames", .unsigned totalFrames.toNat)]).canonical = true :=
    Json.canonical_ofFields (show ["total_frames"].all Json.asciiKey = true by decide)
      (by simpa [Json.canonical] using totalFrames.toNat_lt)
  have hparse := Raft.reference_lawful.parse_dump _ _ hcan h
  simp [readFrames, hparse, Except.toOption, Json.ofFields, Json.insertField, Json.field?,
    Json.fields, Json.unsigned?]

/-- Two replays of a battle; the first write fails once. -/
def failFirst : List (StorageEvent UInt64) :=
  [.storeReplay (ascii "b1") 1 false, .turn (.takeTask 0), .attempt .notOpened, .turn .notifyAll,
    .storeReplay (ascii "b1") 2 false, .turn (.elapse 100), .turn (.takeTask 0),
    .attempt .written, .turn .notifyAll, .turn (.takeTask 0), .attempt .written]

theorem last_replay_wins_failFirst : Always (ReplayStorage.step {} (ascii "replays") dumpFrames)
      (LastWins (ascii "replays") readFrames) {} failFirst :=
  last_replay_wins {} (ascii "replays") dumpFrames readFrames (fun _ _ => readFrames_dumpFrames)
    failFirst (by decide +kernel) (by decide +kernel)

/-- The first replay fails once, so it is written last. -/
def failBefore : List (StorageEvent UInt64) :=
  [.storeReplay (ascii "b1") 1 false, .storeReplay (ascii "b1") 2 false, .turn (.takeTask 0),
    .attempt .notOpened, .turn .notifyAll, .turn (.takeTask 0), .attempt .written,
    .turn .notifyAll, .turn (.elapse 100), .turn (.takeTask 0), .attempt .written]

theorem first_replay_wins :
    Along (ReplayStorage.step {} (ascii "replays") dumpFrames) Retried {} failBefore ∧
    ¬ Always (ReplayStorage.step {} (ascii "replays") dumpFrames)
      (LastWins (ascii "replays") readFrames) {} failBefore := by
  refine ⟨by decide +kernel, fun h => ?_⟩
  have hwins := h failBefore [] (by simp) (ascii "b1") 2 (by decide +kernel) (by decide +kernel)
  revert hwins
  decide +kernel

end BoostGateway.Persistence
