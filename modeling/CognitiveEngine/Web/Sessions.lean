/-
# Stored conversations of the web application

`ChatController.StreamChat`, `AuthController` and `SessionController`
(`AgentApp/Controllers`) over the database, with `ChatSessionService`
(`Application/Services/ChatSessionService.cs`).

A message refers to the row of its session.  `CreateSessionAsync` makes such a row, and
messages saved under its id are listed (`createSessionAsync_saves`), but no controller
calls it: `StreamChat` saves under an id of its own.  So the table of sessions stays
empty, and `durable_iff` says that a sequence of requests is free of lost turns exactly
when no user who is logged in gets a whole answer.

A bearer token stands for the claims in it; the framework accepts those that `Login`
made.
-/

import CognitiveEngine.Web.Accounts
import CognitiveEngine.Web.ChatController
import Mathlib.Data.List.Sort

namespace CognitiveEngine
namespace Web

open CognitiveEngine.Machine

/-! ### The session service -/

/-- The message of a `DbUpdateException`. -/
def saveError : String :=
  "An error occurred while saving the entity changes. See the inner exception for details."

/-- `ChatMessages.AddRange` and `SaveChangesAsync`; `none` when a message refers to no
session. -/
def AppDbContext.addMessages (context : AppDbContext) (messages : List ChatMessage) :
    Option AppDbContext :=
  if ∀ m ∈ messages, ∃ session ∈ context.chatSessions, session.id = m.sessionId then
    some { context with chatMessages := context.chatMessages ++ messages }
  else none

/-- `ChatSessions.RemoveRange`, with the messages of the sessions. -/
def AppDbContext.removeSessions (context : AppDbContext) (sessions : List ChatSession) :
    AppDbContext :=
  { context with
    chatSessions := context.chatSessions.filter (· ∉ sessions)
    chatMessages := context.chatMessages.filter fun m => ∀ s ∈ sessions, s.id ≠ m.sessionId }

/-- `ChatSessions.Add` and `SaveChangesAsync`; `none` when the session belongs to no
user. -/
def AppDbContext.addSession (context : AppDbContext) (session : ChatSession) :
    Option AppDbContext :=
  if ∃ user ∈ context.users, user.id = session.userId then
    some { context with chatSessions := context.chatSessions ++ [session] }
  else none

variable (platform : Platform)

/-- `CreateSessionAsync`, at a time. -/
def createSessionAsync (maxSessionsPerUser : ℤ) (backend : Backend)
    (userId initialTitle : String) (now : ℕ) : Option (ChatSession × Backend) :=
  let userSessions := (backend.context.chatSessions.filter (·.userId = userId)).insertionSort
    fun s t => s.createdAt ≤ t.createdAt
  let sessionsToDelete :=
    if maxSessionsPerUser ≤ userSessions.length then
      userSessions.take ((userSessions.length : ℤ) - maxSessionsPerUser + 1).toNat
    else []
  let newSession : ChatSession := ⟨platform.newGuid backend.drawn, userId, initialTitle, now, now⟩
  ((backend.context.removeSessions sessionsToDelete).addSession newSession).map fun context =>
    (newSession, ⟨context, backend.drawn + 1⟩)

/-- `SaveMessagesAsync`; `none` when it raises. -/
def saveMessagesAsync (backend : Backend) (sessionId prompt aiResponse : String) :
    Option Backend :=
  let userMsg : ChatMessage := ⟨platform.newGuid backend.drawn, sessionId, "User", prompt⟩
  let aiMsg : ChatMessage := ⟨platform.newGuid (backend.drawn + 1), sessionId, "AI", aiResponse⟩
  (backend.context.addMessages [userMsg, aiMsg]).map fun context => ⟨context, backend.drawn + 2⟩

/-- The rows `GetSessionList` selects. -/
def AppDbContext.sessionList (context : AppDbContext) (userId : String) : List (String × String) :=
  ((context.chatSessions.filter (·.userId = userId)).insertionSort
    fun s t => t.lastUpdated ≤ s.lastUpdated).map fun s => (s.id, s.title)

/-! ### The controllers -/

/-- The claims of a token of `GenerateJwtToken`, without its expiry: the tokens that two logins
of an account are answered with are one here, and expire together. -/
structure Token where
  nameIdentifier : String
  name : String
deriving DecidableEq

/-- The application: its database, the tokens that were issued and have not expired, and
`TempSessionId` in the session of each browser. -/
structure WebState where
  backend : Backend
  issued : List Token
  tempSessionId : String → Option String

/-- The application on an empty database. -/
def WebState.fresh : WebState := ⟨.fresh, [], fun _ => none⟩

/-- What the loop over `StreamChatAsync` gets, and the message of the exception that
breaks it off, if one does. -/
structure Upstream where
  chunks : List String
  error : Option String

/-- A request, with whether the model state is valid where that is asked; tokens and
idle sessions expire at any time. -/
inductive WebRequest where
  | register (valid : Bool) (username password salt : String)
  | login (valid : Bool) (username password : String)
  | streamChat (browser : String) (bearer : Option Token) (prompt : String) (upstream : Upstream)
  | getSessionList (bearer : Option Token)
  | tokenExpires (token : Token)
  | sessionExpires (browser : String)

/-- What is answered. -/
inductive WebResponse where
  | badRequest
  | unauthorized (text : String)
  | failed (text details : String)
  | raised
  | registered (text userId : String)
  | loggedIn (text : String) (token : Token) (userId username : String)
  | stream (body : List String)
  | sessions (list : List (String × String))
  | nothing

variable {platform} (s : WebState)

/-- `Register`. -/
def WebState.register (platform : Platform) (username password salt : String) :
    WebResponse × WebState :=
  match registerAsync platform s.backend username password salt with
  | (.registered newUser, backend) =>
      (.registered "User registered successfully." newUser.id, { s with backend := backend })
  | (_, backend) =>
      (.failed "An error occurred during registration." saveError,
        { s with backend := backend })

/-- `Login`; a lookup that raises is answered by the framework. -/
def WebState.login (platform : Platform) (username password : String) : WebResponse × WebState :=
  match authenticateAsync platform s.backend.context username password with
  | .authenticated (some user) =>
      let token : Token := ⟨user.id, user.username⟩
      (.loggedIn "Login successful." token user.id user.username,
        { s with issued := s.issued ++ [token] })
  | .authenticated none => (.unauthorized "Invalid username or password.", s)
  | _ => (.raised, s)

/-- `User`, once the bearer token has been looked at. -/
def WebState.principal (bearer : Option Token) : Option Token := bearer.filter (· ∈ s.issued)

/-- The request `StreamChat` reads. -/
def WebState.browserRequest (browser : String) (bearer : Option Token) (prompt : String) :
    BrowserRequest :=
  ⟨prompt, (s.principal bearer).isSome, (s.principal bearer).map Token.nameIdentifier,
    s.tempSessionId browser⟩

/-- The GUIDs drawn by `StreamChat`: one for the user id of a guest, and one for a
session id when the session has none. -/
def WebState.newGuids (platform : Platform) (r : BrowserRequest) : NewGuids × ℕ :=
  let guests := if r.isAuthenticated then 0 else 1
  let sessions := if r.tempSessionId.isSome then 0 else 1
  (⟨platform.newGuid s.backend.drawn, platform.newGuid (s.backend.drawn + guests)⟩,
    s.backend.drawn + guests + sessions)

/-- What is written for a chunk or an error. -/
def dataEvent (text : String) : String := "data: " ++ text ++ "\n\n"

/-- The text written for an exception that is caught. -/
def systemError (text : String) : String := dataEvent ("[SYSTEM ERROR: " ++ text ++ "]")

/-- The session id and the state `StreamChat` starts with. -/
def WebState.opened (platform : Platform) (browser : String) (r : BrowserRequest) :
    String × WebState :=
  let guids := s.newGuids platform r
  (r.sessionId guids.1,
    { s with
      backend := { s.backend with drawn := guids.2 }
      tempSessionId := Function.update s.tempSessionId browser (r.sessionAfter guids.1) })

/-- `StreamChat`. -/
def WebState.streamChat (platform : Platform) (browser : String) (bearer : Option Token)
    (prompt : String) (upstream : Upstream) : WebResponse × WebState :=
  let r := s.browserRequest browser bearer prompt
  let opened := s.opened platform browser r
  let written := upstream.chunks.map dataEvent
  match upstream.error with
  | some error => (.stream (written ++ [systemError error]), opened.2)
  | none =>
      if r.isAuthenticated then
        match saveMessagesAsync platform opened.2.backend opened.1 prompt
            (String.join upstream.chunks) with
        | none => (.stream (written ++ [systemError saveError]), opened.2)
        | some backend => (.stream written, { opened.2 with backend := backend })
      else (.stream written, opened.2)

/-- `GetSessionList`; without a valid token, or with an empty id in it, it is not
authorized. -/
def WebState.getSessionList (bearer : Option Token) : WebResponse :=
  match s.principal bearer with
  | none => .unauthorized ""
  | some token =>
      if token.nameIdentifier = "" then .unauthorized "User token is invalid."
      else .sessions (s.backend.context.sessionList token.nameIdentifier)

/-- One request. -/
def WebState.serve (platform : Platform) : WebRequest → WebResponse × WebState
  | .register valid username password salt =>
      if valid then s.register platform username password salt else (.badRequest, s)
  | .login valid username password =>
      if valid then s.login platform username password else (.badRequest, s)
  | .streamChat browser bearer prompt upstream =>
      s.streamChat platform browser bearer prompt upstream
  | .getSessionList bearer => (s.getSessionList bearer, s)
  | .tokenExpires token => (.nothing, { s with issued := s.issued.filter (· ≠ token) })
  | .sessionExpires browser =>
      (.nothing, { s with tempSessionId := Function.update s.tempSessionId browser none })

/-- The step relation of the application. -/
def WebStep (platform : Platform) (s : WebState) (request : WebRequest) (response : WebResponse)
    (s' : WebState) : Prop :=
  s.serve platform request = (response, s')

/-! ### Durable turns -/

/-- A request streams a whole answer to a user who is logged in. -/
inductive AnswersUser (s : WebState) : WebRequest → Token → String → String → Prop
  | intro {browser prompt : String} {bearer : Option Token} {token : Token} {chunks : List String}
      (huser : s.principal bearer = some token) :
      AnswersUser s (.streamChat browser bearer prompt ⟨chunks, none⟩) token prompt
        (String.join chunks)

/-- The messages of a request are saved under the id of a session that is not there. -/
def ViolatesForeignKey (platform : Platform) (s : WebState) (request : WebRequest) : Prop :=
  ∃ browser bearer token prompt chunks,
    request = .streamChat browser bearer prompt ⟨chunks, none⟩ ∧
      s.principal bearer = some token ∧
      saveMessagesAsync platform
        (s.opened platform browser (s.browserRequest browser bearer prompt)).2.backend
        (s.opened platform browser (s.browserRequest browser bearer prompt)).1 prompt
        (String.join chunks) = none

/-- The prompt and the answer are messages of a listed session of the user. -/
def TurnStored (context : AppDbContext) (userId prompt answer : String) : Prop :=
  ∃ session ∈ context.chatSessions, session.userId = userId ∧
    (session.id, session.title) ∈ context.sessionList userId ∧
    (∃ m ∈ context.chatMessages, m.sessionId = session.id ∧ m.role = "User" ∧ m.content = prompt) ∧
    ∃ m ∈ context.chatMessages, m.sessionId = session.id ∧ m.role = "AI" ∧ m.content = answer

/-- **An authenticated turn is durable:** no request violates the foreign key, and after
one that streamed a whole answer to a user who is logged in, the turn is stored and
listed for that user. -/
def Durable (platform : Platform) (es : List (Event WebState WebRequest WebResponse)) : Prop :=
  ∀ e ∈ es, ¬ ViolatesForeignKey platform e.before e.input ∧
    ∀ token prompt answer, AnswersUser e.before e.input token prompt answer →
      let s' := (e.before.serve platform e.input).2
      TurnStored s'.backend.context token.nameIdentifier prompt answer ∧
        s'.getSessionList (some token)
          = .sessions (s'.backend.context.sessionList token.nameIdentifier)

/-- Registration and login leave the sessions alone. -/
theorem chatSessions_registerAsync (platform : Platform) (backend : Backend)
    (username password salt : String) :
    (registerAsync platform backend username password salt).2.context.chatSessions
      = backend.context.chatSessions := by
  unfold registerAsync AppDbContext.addUser
  by_cases h : ∃ u ∈ backend.context.users, u.id
      = (backend.newUser platform username password salt).id
  · simp [h]
  · simp [h]

/-- **What is saved:** both messages, when there is a session with the id. -/
theorem saveMessagesAsync_eq (platform : Platform) (backend : Backend)
    (sessionId prompt aiResponse : String) :
    saveMessagesAsync platform backend sessionId prompt aiResponse
      = if ∃ session ∈ backend.context.chatSessions, session.id = sessionId then
          some ⟨{ backend.context with
            chatMessages := backend.context.chatMessages ++
              [⟨platform.newGuid backend.drawn, sessionId, "User", prompt⟩,
                ⟨platform.newGuid (backend.drawn + 1), sessionId, "AI", aiResponse⟩] },
            backend.drawn + 2⟩
        else none := by
  rw [saveMessagesAsync, AppDbContext.addMessages]
  by_cases h : ∃ session ∈ backend.context.chatSessions, session.id = sessionId
  · rw [if_pos (by simpa using h), if_pos h, Option.map_some]
  · rw [if_neg (by simpa using h), if_neg h, Option.map_none]

/-- Messages that are saved leave the sessions alone. -/
theorem chatSessions_saveMessagesAsync {platform : Platform} {backend backend' : Backend}
    {sessionId prompt aiResponse : String}
    (h : saveMessagesAsync platform backend sessionId prompt aiResponse = some backend') :
    backend'.context.chatSessions = backend.context.chatSessions := by
  rw [saveMessagesAsync_eq] at h
  split at h
  · obtain rfl := Option.some.inj h
    rfl
  · exact absurd h (by simp)

theorem chatSessions_streamChat (platform : Platform) (browser : String) (bearer : Option Token)
    (prompt : String) (upstream : Upstream) :
    (s.streamChat platform browser bearer prompt upstream).2.backend.context.chatSessions
      = s.backend.context.chatSessions := by
  unfold WebState.streamChat
  cases upstream.error with
  | some error => rfl
  | none =>
      dsimp only
      by_cases huser : (s.browserRequest browser bearer prompt).isAuthenticated = true
      · rw [if_pos huser]
        cases hsave : saveMessagesAsync platform
            (s.opened platform browser (s.browserRequest browser bearer prompt)).2.backend
            (s.opened platform browser (s.browserRequest browser bearer prompt)).1 prompt
            (String.join upstream.chunks) with
        | none => rfl
        | some backend =>
            have hkept := chatSessions_saveMessagesAsync hsave
            exact hkept
      · rw [if_neg huser]
        rfl

/-- **No request makes a session.** -/
theorem chatSessions_serve (platform : Platform) (request : WebRequest) :
    (s.serve platform request).2.backend.context.chatSessions
      = s.backend.context.chatSessions := by
  cases request with
  | register valid username password salt =>
      cases valid with
      | false => rfl
      | true =>
          refine Eq.trans ?_ (chatSessions_registerAsync platform s.backend username password salt)
          rw [WebState.serve, if_pos rfl, WebState.register]
          split <;> simp [*]
  | login valid username password =>
      cases valid with
      | false => rfl
      | true =>
          rw [WebState.serve, if_pos rfl, WebState.login]
          split <;> rfl
  | streamChat browser bearer prompt upstream =>
      exact chatSessions_streamChat s platform browser bearer prompt upstream
  | getSessionList bearer => rfl
  | tokenExpires token => rfl
  | sessionExpires browser => rfl

/-- Nothing can be saved while there is no session. -/
theorem saveMessagesAsync_eq_none {backend : Backend} (h : backend.context.chatSessions = [])
    (platform : Platform) (sessionId prompt aiResponse : String) :
    saveMessagesAsync platform backend sessionId prompt aiResponse = none := by
  rw [saveMessagesAsync_eq, if_neg (by simp [h])]

/-- **What `CreateSessionAsync` is for:** messages saved under the id of the session it
makes are stored and listed for the user. -/
theorem createSessionAsync_saves (platform : Platform) (maxSessionsPerUser : ℤ)
    {backend : Backend} {userId : String} (huser : ∃ user ∈ backend.context.users, user.id = userId)
    (initialTitle prompt answer : String) (now : ℕ) :
    ∃ session created saved,
      createSessionAsync platform maxSessionsPerUser backend userId initialTitle now
        = some (session, created) ∧
      saveMessagesAsync platform created session.id prompt answer = some saved ∧
      TurnStored saved.context userId prompt answer := by
  unfold createSessionAsync AppDbContext.addSession AppDbContext.removeSessions
  dsimp only
  rw [if_pos huser, Option.map_some]
  refine ⟨_, _, _, rfl, (saveMessagesAsync_eq _ _ _ _ _).trans (if_pos ?_), ?_⟩
  · exact ⟨_, List.mem_append_right _ (List.mem_singleton_self _), rfl⟩
  · refine ⟨_, List.mem_append_right _ (List.mem_singleton_self _), rfl, ?_,
      ⟨_, List.mem_append_right _ List.mem_cons_self, rfl, rfl, rfl⟩,
      ⟨_, List.mem_append_right _ (.tail _ List.mem_cons_self), rfl, rfl, rfl⟩⟩
    refine List.mem_map.2 ⟨_, ?_, rfl⟩
    rw [List.mem_insertionSort, List.mem_filter]
    exact ⟨List.mem_append_right _ (List.mem_singleton_self _), by simp⟩

/-- **When the turns of a sequence of requests are durable.**  Starting from an empty
database: exactly when no user who is logged in gets a whole answer. -/
theorem durable_iff {platform : Platform} {es : List (Event WebState WebRequest WebResponse)}
    {s' : WebState} (ht : Trace (WebStep platform) .fresh es s') :
    Durable platform es ↔
      ∀ e ∈ es, ∀ token prompt answer, ¬ AnswersUser e.before e.input token prompt answer := by
  have hempty : ∀ e ∈ es, e.before.backend.context.chatSessions = [] :=
    (ht.invariant (P := fun s => s.backend.context.chatSessions = []) (fun {s s' i o} hs hstep => by
      have hs' : (s.serve platform i).2 = s' := congrArg Prod.snd hstep
      rw [← hs', chatSessions_serve, hs]) rfl).2
  constructor
  · intro hdurable e he token prompt answer hanswers
    obtain ⟨⟨session, hsession, -⟩, -⟩ := (hdurable e he).2 token prompt answer hanswers
    rw [chatSessions_serve, hempty e he] at hsession
    exact absurd hsession List.not_mem_nil
  · intro hnone e he
    refine ⟨?_, fun token prompt answer h => absurd h (hnone e he token prompt answer)⟩
    rintro ⟨browser, bearer, token, prompt, chunks, hinput, huser, -⟩
    exact hnone e he token prompt _ (hinput ▸ AnswersUser.intro huser)

/-! ### The first question of a new user -/

/-- Alice after she has registered, and her token. -/
def aliceKnown : WebState := ⟨aliceRegistered.2, [], fun _ => none⟩

/-- Alice's token. -/
def aliceToken : Token := ⟨plainPlatform.newGuid 0, "alice"⟩

/-- The events of a registration and a login. -/
def aliceEvents : List (Event WebState WebRequest WebResponse) :=
  [⟨.fresh, .register true "alice" "correct horse" "N9qo8uLOickgx2ZMRZoMye",
      .registered "User registered successfully." (plainPlatform.newGuid 0)⟩,
    ⟨aliceKnown, .login true "alice" "correct horse",
      .loggedIn "Login successful." aliceToken (plainPlatform.newGuid 0) "alice"⟩]

/-- The application after them. -/
def aliceLoggedIn : WebState := { aliceKnown with issued := [aliceToken] }

/-- Alice's events are those of the application. -/
theorem trace_aliceEvents :
    Trace (WebStep plainPlatform) .fresh aliceEvents aliceLoggedIn := by
  refine .cons rfl (.cons ?_ (.nil _))
  rfl

/-- A guest asks, and is answered. -/
def guestQuestion : WebRequest :=
  .streamChat "guest's browser" none "What makes the tides?" ⟨["The ", "moon."], none⟩

/-- Alice asks, and her answer breaks off. -/
def brokenQuestion : WebRequest :=
  .streamChat "browser" (some aliceToken) "What makes the tides?" ⟨["The "], some "Cancelled"⟩

/-- The events of these requests. -/
def unsavedEvents : List (Event WebState WebRequest WebResponse) :=
  let answered := aliceLoggedIn.serve plainPlatform guestQuestion
  aliceEvents ++ [⟨aliceLoggedIn, guestQuestion, answered.1⟩,
    ⟨answered.2, brokenQuestion, (answered.2.serve plainPlatform brokenQuestion).1⟩]

/-- Nothing is lost of a guest's turn, and of one that breaks off. -/
theorem durable_unsavedEvents : Durable plainPlatform unsavedEvents := by
  have ht : Trace (WebStep plainPlatform) .fresh unsavedEvents _ :=
    trace_aliceEvents.append (.cons rfl (.cons rfl (.nil _)))
  refine (durable_iff ht).2 fun e he token prompt answer hanswers => ?_
  simp only [unsavedEvents, aliceEvents, List.cons_append, List.nil_append, List.mem_cons,
    List.not_mem_nil, or_false] at he
  rcases he with rfl | rfl | rfl | rfl
  · cases hanswers
  · cases hanswers
  · obtain ⟨huser⟩ := hanswers
    exact absurd huser.symm (Option.some_ne_none token)
  · cases hanswers

/-- The first answer to a user who has logged in is lost. -/
theorem first_turn_lost :
    ¬ ∀ es s', Trace (WebStep plainPlatform) .fresh es s' → Durable plainPlatform es := by
  intro h
  let known := aliceLoggedIn
  let question : WebRequest :=
    .streamChat "browser" (some aliceToken) "What makes the tides?" ⟨["The ", "moon."], none⟩
  have ht : Trace (WebStep plainPlatform) .fresh
      (aliceEvents ++ [⟨known, question, (known.serve plainPlatform question).1⟩])
      (known.serve plainPlatform question).2 := by
    refine .cons rfl (.cons ?_ (.cons rfl (.nil _)))
    rfl
  have hviolates : ViolatesForeignKey plainPlatform known question :=
    ⟨_, _, aliceToken, _, _, rfl, by decide, saveMessagesAsync_eq_none rfl _ _ _ _⟩
  exact (h _ _ ht _ (List.mem_append_right _ (List.mem_singleton_self _))).1 hviolates

end Web
end CognitiveEngine
