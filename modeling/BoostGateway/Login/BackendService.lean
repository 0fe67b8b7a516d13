import Mathlib.Data.List.AList
import BoostGateway.Gateway.ServiceBridge

/-!
# The login service

The handlers of `LoginBackendService` for logins and sessions. The service remembers a user who has
a session, and not which one. A request whose field is not a string makes a handler throw before it
touches anything, and is left out.
-/

namespace BoostGateway.Login

open Gateway (ServiceErrorCode)

structure JwtResult where
  valid : Bool
  sub : Bytes := []
  role : Bytes := []
  error : Bytes := []

inductive AccountStatus where
  | usable
  | disabled
  | banned

/-- What does not change while the service runs. -/
structure LoginConfig where
  jwtValidator : Option (Bytes → JwtResult) := none
  productionAuthRequired : Bool := false
  accountStatus : Bytes → AccountStatus := fun _ => .usable

/-- `BackendPlayerState`. -/
structure LoginService where
  activeSessions : AList fun _ : Bytes => Bytes := ∅
  userTokens : AList fun _ : Bytes => Bytes := ∅

/-- The body of `login_request`. -/
structure LoginDoc where
  userId : Option Bytes := none
  token : Option Bytes := none
  displayName : Option Bytes := none

inductive LoginReply where
  | error (code : ServiceErrorCode) (reason : Bytes)
  | ok (userId displayName : Bytes) (isDuplicate : Bool) (role : Bytes)
  | sessionBound
  | sessionClosed
  deriving DecidableEq

def tokenUserId (token : Bytes) : Bytes :=
  if 58 ∈ token then (token.dropWhile (· ≠ 58)).tail else token

def checkToken (config : LoginConfig) (userId token : Bytes) :
    Except (ServiceErrorCode × Bytes) Bytes :=
  if token = [] then .error (.invalidRequest, ascii "empty_token")
  else
    match config.jwtValidator with
    | some validate =>
      let result := validate token
      if !result.valid then .error (.rejected, result.error)
      else if result.sub ≠ userId then .error (.rejected, ascii "token_subject_mismatch")
      else .ok result.role
    | none =>
      if config.productionAuthRequired then .error (.rejected, ascii "jwt_required")
      else if tokenUserId token = [] then .error (.invalidRequest, ascii "invalid_token_format")
      else .ok (ascii "player")

def refusal (config : LoginConfig) (userId : Bytes) : Option LoginReply :=
  match config.accountStatus userId with
  | .usable => none
  | .disabled => some (.error .accountDisabled (ascii "account_disabled"))
  | .banned => some (.error .accountDisabled (ascii "account_banned"))

namespace LoginService

def handleLoginRequest (config : LoginConfig) (doc : Option LoginDoc) (s : LoginService) :
    LoginService × LoginReply :=
  match doc with
  | none => (s, .error .invalidRequest (ascii "empty_payload"))
  | some { userId := some userId, token := some token, displayName } =>
    if userId = [] then (s, .error .invalidRequest (ascii "empty_user_id"))
    else
      match checkToken config userId token with
      | .error (code, reason) => (s, .error code reason)
      | .ok role =>
        match refusal config userId with
        | some reply => (s, reply)
        | none =>
          let isDuplicate := (s.activeSessions.lookup userId).isSome
          ({ activeSessions := s.activeSessions.insert userId userId
             userTokens := s.userTokens.insert userId token },
            .ok userId (displayName.getD userId) isDuplicate role)
  | some _ => (s, .error .invalidRequest (ascii "invalid_json"))

def handleSessionBind (config : LoginConfig) (userId : Option Bytes) (s : LoginService) :
    LoginService × LoginReply :=
  match userId with
  | none => (s, .error .invalidRequest (ascii "invalid_json"))
  | some userId =>
    match refusal config userId with
    | some reply => (s, reply)
    | none =>
      ({ s with activeSessions := s.activeSessions.insert userId userId }, .sessionBound)

def handleSessionClose (userId : Option Bytes) (s : LoginService) : LoginService × LoginReply :=
  match userId with
  | none => (s, .error .invalidRequest (ascii "invalid_json"))
  | some userId =>
    ({ activeSessions := s.activeSessions.erase userId
       userTokens := s.userTokens.erase userId }, .sessionClosed)

/-- A login changes nothing, or records the user and reports a record. -/
theorem handleLoginRequest_cases (config : LoginConfig) (doc : Option LoginDoc) (s : LoginService) :
    (∃ code reason, s.handleLoginRequest config doc = (s, .error code reason)) ∨
      ∃ userId token displayName role, s.handleLoginRequest config doc =
          ({ activeSessions := s.activeSessions.insert userId userId
             userTokens := s.userTokens.insert userId token },
            .ok userId displayName (s.activeSessions.lookup userId).isSome role) := by
  unfold handleLoginRequest
  split
  · exact .inl ⟨_, _, rfl⟩
  · rename_i userId token displayName
    split
    · exact .inl ⟨_, _, rfl⟩
    split
    · exact .inl ⟨_, _, rfl⟩
    · rename_i role _
      unfold refusal
      cases config.accountStatus userId with
      | usable => exact .inr ⟨userId, token, _, role, rfl⟩
      | disabled | banned => exact .inl ⟨_, _, rfl⟩
  · exact .inl ⟨_, _, rfl⟩

theorem handleSessionBind_cases (config : LoginConfig) (userId : Option Bytes) (s : LoginService) :
    (s.handleSessionBind config userId).1 = s ∨ ∃ userId', (s.handleSessionBind config userId).1 =
        { s with activeSessions := s.activeSessions.insert userId' userId' } := by
  unfold handleSessionBind
  split
  · exact .inl rfl
  · rename_i userId
    split
    · exact .inl rfl
    · exact .inr ⟨userId, rfl⟩

theorem isSome_lookup_insert {userId other : Bytes} {sessions : AList fun _ : Bytes => Bytes}
    (h : (sessions.lookup other).isSome = true) :
    ((sessions.insert userId userId).lookup other).isSome = true := by
  by_cases heq : other = userId
  · subst heq
    rw [AList.lookup_insert]
    rfl
  · rwa [AList.lookup_insert_ne heq]

end LoginService

/-! ## Second sessions of a user

Any number of gateways send logins and, when a session closes, a `session_close` for the user of the
session. The login service forgets the user with the first `session_close`, whatever other sessions
the user has. -/

abbrev GatewaySession := Nat × Nat

/-- The login service, the open sessions, and the `session_close` requests on their way. -/
structure LoginWorld where
  service : LoginService := {}
  users : GatewaySession → Option Bytes := fun _ => none
  closing : List Bytes := []

inductive LoginEvent where
  /-- A `login_request` on behalf of a session. -/
  | login (session : GatewaySession) (doc : Option LoginDoc)
  | sessionBind (userId : Option Bytes)
  /-- A session closes, and its gateway sends a `session_close` if a user is logged in. -/
  | disconnect (session : GatewaySession)
  /-- A `session_close` arrives. -/
  | sessionClose (userId : Bytes)

namespace LoginWorld

variable (config : LoginConfig)

/-- The gateway remembers the user of a login that succeeds. -/
def login (session : GatewaySession) (doc : Option LoginDoc) (w : LoginWorld) : LoginWorld :=
  let (service, reply) := w.service.handleLoginRequest config doc
  match reply with
  | .ok userId _ _ _ =>
    { w with
      service
      users := fun other => if other = session then some userId else w.users other }
  | _ => { w with service }

def step (w : LoginWorld) : LoginEvent → LoginWorld
  | .login session doc => w.login config session doc
  | .sessionBind userId => { w with service := (w.service.handleSessionBind config userId).1 }
  | .disconnect session =>
    match w.users session with
    | none => w
    | some userId =>
      { w with
        users := fun other => if other = session then none else w.users other
        closing := w.closing ++ [userId] }
  | .sessionClose userId =>
    if userId ∈ w.closing then
      { w with
        service := (w.service.handleSessionClose (some userId)).1
        closing := w.closing.erase userId }
    else w

/-- A login besides another open session is a duplicate. -/
def ReportsDuplicate (w : LoginWorld) : LoginEvent → Prop
  | .login session doc =>
    ∀ userId displayName isDuplicate role other,
      (w.service.handleLoginRequest config doc).2 = .ok userId displayName isDuplicate role →
      other ≠ session → w.users other = some userId → isDuplicate = true
  | _ => True

/-- A `session_close` arrives when its user has no open session. -/
def ClosesLast (w : LoginWorld) : LoginEvent → Prop
  | .sessionClose userId => userId ∈ w.closing → ∀ session, w.users session ≠ some userId
  | _ => True

def Remembered (w : LoginWorld) : Prop := ∀ session userId, w.users session = some userId →
    (w.service.activeSessions.lookup userId).isSome = true

variable {config} {w : LoginWorld}

theorem Remembered.login (h : w.Remembered) (session : GatewaySession) (doc : Option LoginDoc) :
    (w.login config session doc).Remembered ∧ w.ReportsDuplicate config (.login session doc) := by
  rcases LoginService.handleLoginRequest_cases config doc w.service with
    ⟨code, reason, hlogin⟩ | ⟨userId, token, displayName, role, hlogin⟩
  · rw [LoginWorld.login, ReportsDuplicate, hlogin]
    exact ⟨h, by rintro _ _ _ _ _ ⟨⟩⟩
  · rw [LoginWorld.login, ReportsDuplicate, hlogin]
    refine ⟨fun other user huser => ?_, ?_⟩
    · dsimp only at huser ⊢
      split at huser
      · cases huser
        rw [AList.lookup_insert]
        rfl
      · exact LoginService.isSome_lookup_insert (h other user huser)
    · rintro _ _ _ _ other ⟨⟩ _ huser
      exact h other userId huser

theorem Remembered.step (h : w.Remembered) (event : LoginEvent) (hcloses : w.ClosesLast event) :
    (w.step config event).Remembered ∧ w.ReportsDuplicate config event := by
  cases event with
  | login session doc => exact h.login session doc
  | sessionBind userId =>
    refine ⟨fun session user huser => ?_, trivial⟩
    dsimp only [LoginWorld.step]
    rcases LoginService.handleSessionBind_cases config userId w.service with hbind | ⟨bound, hbind⟩
    · rw [hbind]
      exact h session user huser
    · rw [hbind]
      exact LoginService.isSome_lookup_insert (h session user huser)
  | disconnect =>
    refine ⟨?_, trivial⟩
    dsimp only [LoginWorld.step]
    split
    · exact h
    · intro other user huser
      dsimp only at huser
      split at huser
      · cases huser
      · exact h other user huser
  | sessionClose userId =>
    refine ⟨?_, trivial⟩
    dsimp only [LoginWorld.step]
    split
    · rename_i harrives
      intro session user huser
      have hne : user ≠ userId := by
        rintro rfl
        exact hcloses harrives session huser
      dsimp only [LoginService.handleSessionClose]
      rw [AList.lookup_erase_ne hne]
      exact h session user huser
    · exact h

/-- Second sessions are reported if a `session_close` arrives only for users without an open
session. -/
theorem duplicates_reported (config : LoginConfig) (events : List LoginEvent)
    (h : Along (step config) ClosesLast {} events) :
    Along (step config) (ReportsDuplicate config) {} events := by
  have hstart : Remembered {} := by rintro _ _ ⟨⟩
  exact h.of_invariant (fun _ event (hw : Remembered _) hcloses => hw.step event hcloses) hstart

def loginOn (session : GatewaySession) : LoginEvent :=
  .login session (some { userId := some (ascii "u"), token := some (ascii "token:u") })

/-- The user logs in on two gateways. -/
theorem second_login_reported :
    (((loginOn (1, 1) :: []).foldl (step {}) {}).service.handleLoginRequest {}
        (some { userId := some (ascii "u"), token := some (ascii "token:u") })).2 =
        .ok (ascii "u") (ascii "u") true (ascii "player") ∧
      Along (step {}) (ReportsDuplicate {}) {} [loginOn (1, 1), loginOn (2, 1)] :=
  ⟨by decide +kernel, duplicates_reported {} _
    (along_cons.mpr ⟨trivial, along_cons.mpr ⟨trivial, along_nil⟩⟩)⟩

/-- The first of two sessions closes, and the third is not reported. -/
theorem third_session_not_reported : ¬∀ (config : LoginConfig) (events : List LoginEvent),
      Along (step config) (ReportsDuplicate config) {} events := by
  intro h
  have hreports := h {} [loginOn (1, 1), loginOn (2, 1), .disconnect (1, 1),
    .sessionClose (ascii "u"), loginOn (3, 1)] [_, _, _, _] _ [] rfl
  have hdup := hreports (ascii "u") (ascii "u") false (ascii "player") (2, 1) (by decide +kernel)
    (by decide) (by decide +kernel)
  cases hdup

end LoginWorld

end BoostGateway.Login
