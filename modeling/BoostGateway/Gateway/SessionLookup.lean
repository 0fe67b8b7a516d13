import Mathlib.Data.List.AList
import BoostGateway.Bytes

/-!
# Who is behind a session

`SessionLookup` remembers one user and one room for each session, and the sessions of each room. The
two maps about rooms agree, which the structure carries as a field.
-/

namespace BoostGateway.Gateway

open List

abbrev SessionId := Nat

abbrev ActorId := Nat

/-- The sessions that a map from rooms lists for a room. -/
def sessionsOf (sessionsByRoomId : AList fun _ : Bytes => List SessionId) (roomId : Bytes) :
    List SessionId :=
  (sessionsByRoomId.lookup roomId).getD []

structure SessionLookup where
  usersBySessionId : AList fun _ : SessionId => Bytes := ∅
  roomsBySessionId : AList fun _ : SessionId => Bytes := ∅
  sessionsByRoomId : AList fun _ : Bytes => List SessionId := ∅
  playersByUserId : AList fun _ : Bytes => ActorId := ∅
  roomsByRoomId : AList fun _ : Bytes => ActorId := ∅
  listed : ∀ sessionId roomId, sessionId ∈ sessionsOf sessionsByRoomId roomId ↔
    roomsBySessionId.lookup sessionId = some roomId := by
      intro sessionId roomId
      exact iff_of_false List.not_mem_nil nofun

/-- The unspecified order of an `unordered_map`. -/
structure WalkOrder where
  first : List SessionId → Option SessionId
  isSome_iff : ∀ sessions, (first sessions).isSome ↔ sessions ≠ []
  mem : ∀ {sessions sessionId}, first sessions = some sessionId → sessionId ∈ sessions

def WalkOrder.asListed : WalkOrder where
  first := List.head?
  isSome_iff sessions := by cases sessions <;> simp
  mem := mem_of_mem_head?

namespace SessionLookup

def sessionsInRoom (roomId : Bytes) (l : SessionLookup) : List SessionId :=
  sessionsOf l.sessionsByRoomId roomId

def userIdFor (sessionId : SessionId) (l : SessionLookup) : Bytes :=
  (l.usersBySessionId.lookup sessionId).getD []

def roomIdFor (sessionId : SessionId) (l : SessionLookup) : Bytes :=
  (l.roomsBySessionId.lookup sessionId).getD []

def sessionsOfUser (userId : Bytes) (l : SessionLookup) : List SessionId :=
  l.usersBySessionId.keys.filter fun sessionId =>
    l.usersBySessionId.lookup sessionId = some userId

def sessionForUser (order : WalkOrder) (userId : Bytes) (l : SessionLookup) : Option SessionId :=
  order.first (l.sessionsOfUser userId)

def setSessionUser (sessionId : SessionId) (userId : Bytes) (l : SessionLookup) : SessionLookup :=
  { l with usersBySessionId := l.usersBySessionId.insert sessionId userId }

def eraseSessionUser (sessionId : SessionId) (l : SessionLookup) : SessionLookup :=
  { l with usersBySessionId := l.usersBySessionId.erase sessionId }

/-- A room's list without a session, dropped if empty. -/
def unlist (sessionId : SessionId) (roomId : Bytes)
    (sessionsByRoomId : AList fun _ : Bytes => List SessionId) :
    AList fun _ : Bytes => List SessionId :=
  match sessionsByRoomId.lookup roomId with
  | none => sessionsByRoomId
  | some sessions =>
    let rest := sessions.filter (· ≠ sessionId)
    if rest = [] then sessionsByRoomId.erase roomId else sessionsByRoomId.insert roomId rest

theorem mem_unlist (sessionId : SessionId) (roomId : Bytes)
    (sessionsByRoomId : AList fun _ : Bytes => List SessionId) (other : SessionId)
    (otherRoom : Bytes) :
    other ∈ sessionsOf (unlist sessionId roomId sessionsByRoomId) otherRoom ↔
      other ∈ sessionsOf sessionsByRoomId otherRoom ∧
        ¬(otherRoom = roomId ∧ other = sessionId) := by
  unfold unlist
  cases hsession : sessionsByRoomId.lookup roomId with
  | none =>
    refine (and_iff_left_of_imp ?_).symm
    rintro hmem ⟨rfl, -⟩
    simp [sessionsOf, hsession] at hmem
  | some sessions =>
    have hlist : sessionsOf sessionsByRoomId roomId = sessions := by
      rw [sessionsOf, hsession, Option.getD_some]
    dsimp only
    by_cases hroom : otherRoom = roomId
    · subst hroom
      have hrest : other ∈ sessions.filter (· ≠ sessionId) ↔
          other ∈ sessions ∧ other ≠ sessionId := by simp
      rw [hlist]
      split
      case isTrue hnil =>
        rw [hnil] at hrest
        simpa [sessionsOf] using hrest
      case isFalse => simp [sessionsOf]
    · have hother : sessionsOf (if sessions.filter (· ≠ sessionId) = [] then
          sessionsByRoomId.erase roomId
          else sessionsByRoomId.insert roomId (sessions.filter (· ≠ sessionId))) otherRoom =
            sessionsOf sessionsByRoomId otherRoom := by
        split
        · rw [sessionsOf, AList.lookup_erase_ne hroom, sessionsOf]
        · rw [sessionsOf, AList.lookup_insert_ne hroom, sessionsOf]
      rw [hother]
      simp [hroom]

def eraseSessionRoom (sessionId : SessionId) (l : SessionLookup) : SessionLookup where
  usersBySessionId := l.usersBySessionId
  roomsBySessionId := l.roomsBySessionId.erase sessionId
  sessionsByRoomId :=
    match l.roomsBySessionId.lookup sessionId with
    | none => l.sessionsByRoomId
    | some roomId => unlist sessionId roomId l.sessionsByRoomId
  playersByUserId := l.playersByUserId
  roomsByRoomId := l.roomsByRoomId
  listed := by
    intro other otherRoom
    have hlisted := l.listed other otherRoom
    by_cases hother : other = sessionId
    · subst hother
      rw [AList.lookup_erase]
      refine iff_of_false ?_ nofun
      cases hroom : l.roomsBySessionId.lookup other with
      | none => simp [hlisted, hroom]
      | some =>
        rw [mem_unlist, hlisted, hroom]
        rintro ⟨hsame, hnot⟩
        exact hnot ⟨(Option.some.inj hsame).symm, rfl⟩
    · rw [AList.lookup_erase_ne hother, ← hlisted]
      cases hroom : l.roomsBySessionId.lookup sessionId with
      | none => exact Iff.rfl
      | some =>
        rw [mem_unlist]
        exact and_iff_left fun h => hother h.2

theorem not_listed_eraseSessionRoom (sessionId : SessionId) (roomId : Bytes) (l : SessionLookup) :
    sessionId ∉ sessionsOf (l.eraseSessionRoom sessionId).sessionsByRoomId roomId := by
  rw [(l.eraseSessionRoom sessionId).listed]
  simp [eraseSessionRoom]

def setSessionRoom (sessionId : SessionId) (roomId : Bytes) (l : SessionLookup) :
    SessionLookup where
  usersBySessionId := l.usersBySessionId
  roomsBySessionId := (l.eraseSessionRoom sessionId).roomsBySessionId.insert sessionId roomId
  sessionsByRoomId := (l.eraseSessionRoom sessionId).sessionsByRoomId.insert roomId
    ((l.eraseSessionRoom sessionId).sessionsInRoom roomId ++ [sessionId])
  playersByUserId := l.playersByUserId
  roomsByRoomId := l.roomsByRoomId
  listed := by
    intro other otherRoom
    have hlisted := (l.eraseSessionRoom sessionId).listed other otherRoom
    by_cases hother : other = sessionId
    · subst hother
      rw [AList.lookup_insert]
      by_cases hroom : otherRoom = roomId
      · subst hroom
        simp [sessionsOf]
      · refine iff_of_false ?_ fun h => hroom (Option.some.inj h).symm
        rw [sessionsOf, AList.lookup_insert_ne hroom, ← sessionsOf]
        exact not_listed_eraseSessionRoom other otherRoom l
    · rw [AList.lookup_insert_ne hother, ← hlisted]
      by_cases hroom : otherRoom = roomId
      · subst hroom
        simp [sessionsOf, sessionsInRoom, hother]
      · rw [sessionsOf, AList.lookup_insert_ne hroom, ← sessionsOf]

def eraseSession (sessionId : SessionId) (l : SessionLookup) : SessionLookup :=
  (l.eraseSessionUser sessionId).eraseSessionRoom sessionId

/-! ## Sequences of calls -/

/-- The calls that change the maps of the sessions. -/
inductive IndexCall
  | setSessionUser (sessionId : SessionId) (userId : Bytes)
  | setSessionRoom (sessionId : SessionId) (roomId : Bytes)
  | eraseSession (sessionId : SessionId)
  | eraseSessionUser (sessionId : SessionId)
  | eraseSessionRoom (sessionId : SessionId)

def call (l : SessionLookup) : IndexCall → SessionLookup
  | .setSessionUser sessionId userId => l.setSessionUser sessionId userId
  | .setSessionRoom sessionId roomId => l.setSessionRoom sessionId roomId
  | .eraseSession sessionId => l.eraseSession sessionId
  | .eraseSessionUser sessionId => l.eraseSessionUser sessionId
  | .eraseSessionRoom sessionId => l.eraseSessionRoom sessionId

def Unrepeated (sessionsByRoomId : AList fun _ : Bytes => List SessionId) : Prop :=
  ∀ roomId, (sessionsOf sessionsByRoomId roomId).Nodup

theorem unrepeated_insert {sessionsByRoomId : AList fun _ : Bytes => List SessionId}
    (h : Unrepeated sessionsByRoomId) {sessions : List SessionId} (hnodup : sessions.Nodup)
    (roomId : Bytes) : Unrepeated (sessionsByRoomId.insert roomId sessions) := by
  intro other
  by_cases hroom : other = roomId
  · subst hroom
    simpa [sessionsOf] using hnodup
  · rw [sessionsOf, AList.lookup_insert_ne hroom]
    exact h other

theorem unrepeated_unlist {sessionsByRoomId : AList fun _ : Bytes => List SessionId}
    (h : Unrepeated sessionsByRoomId) (sessionId : SessionId) (roomId : Bytes) :
    Unrepeated (unlist sessionId roomId sessionsByRoomId) := by
  unfold unlist
  cases hsession : sessionsByRoomId.lookup roomId with
  | none => exact h
  | some sessions =>
    have hnodup := h roomId
    rw [sessionsOf, hsession, Option.getD_some] at hnodup
    dsimp only
    split
    · intro other
      by_cases hroom : other = roomId
      · subst hroom
        simp [sessionsOf]
      · rw [sessionsOf, AList.lookup_erase_ne hroom]
        exact h other
    · exact unrepeated_insert h (hnodup.filter _) roomId

variable {l : SessionLookup}

theorem unrepeated_eraseSessionRoom (h : Unrepeated l.sessionsByRoomId) (sessionId : SessionId) :
    Unrepeated (l.eraseSessionRoom sessionId).sessionsByRoomId := by
  dsimp only [eraseSessionRoom]
  split
  · exact h
  · exact unrepeated_unlist h sessionId _

theorem unrepeated_call (h : Unrepeated l.sessionsByRoomId) (c : IndexCall) :
    Unrepeated (l.call c).sessionsByRoomId := by
  cases c with
  | setSessionUser => exact h
  | eraseSessionUser => exact h
  | eraseSession sessionId => exact unrepeated_eraseSessionRoom h sessionId
  | eraseSessionRoom sessionId => exact unrepeated_eraseSessionRoom h sessionId
  | setSessionRoom sessionId roomId =>
    have herased := unrepeated_eraseSessionRoom h sessionId
    refine unrepeated_insert herased ?_ roomId
    exact nodup_append.mpr ⟨herased roomId, nodup_singleton _, fun other hmem =>
      by simpa using ne_of_mem_of_not_mem hmem (not_listed_eraseSessionRoom sessionId roomId l)⟩

theorem unrepeated_calls (h : Unrepeated l.sessionsByRoomId) (calls : List IndexCall) :
    Unrepeated (calls.foldl call l).sessionsByRoomId := by
  induction calls generalizing l with
  | nil => exact h
  | cons c calls ih => exact ih (unrepeated_call h c)

theorem roomIdFor_eq_iff {roomId : Bytes} (hroom : roomId ≠ []) (sessionId : SessionId) :
    l.roomIdFor sessionId = roomId ↔ l.roomsBySessionId.lookup sessionId = some roomId := by
  unfold roomIdFor
  cases l.roomsBySessionId.lookup sessionId with
  | none => simp [hroom.symm]
  | some => simp

/-- After any calls a room lists the sessions that are in it, once each. -/
theorem listed_once (calls : List IndexCall) (sessionId : SessionId) (roomId : Bytes)
    (hroom : roomId ≠ []) :
    ((calls.foldl call {}).sessionsInRoom roomId).count sessionId =
      if (calls.foldl call {}).roomIdFor sessionId = roomId then 1 else 0 := by
  have hempty : Unrepeated ({} : SessionLookup).sessionsByRoomId := fun _ => nodup_nil
  rw [sessionsInRoom, List.Nodup.count (unrepeated_calls hempty calls roomId)]
  refine if_congr ?_ rfl rfl
  rw [roomIdFor_eq_iff hroom]
  exact (calls.foldl call {}).listed sessionId roomId

theorem listed_once_lobby : ((call {} (.setSessionRoom 1 (ascii "lobby"))).sessionsInRoom
    (ascii "lobby")).count 1 = 1 :=
  listed_once [.setSessionRoom 1 (ascii "lobby")] 1 (ascii "lobby") (by decide)

end SessionLookup

end BoostGateway.Gateway
