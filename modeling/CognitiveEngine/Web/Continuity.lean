/-
# Who talks to the core, and in which conversation

What the web application passes on to the core, over whole sequences of registrations,
logins, chats and expirations (`AgentApp/Controllers`, `AuthService`).

`StreamChat` sends the id in the caller's token, or `guest_` with a GUID of its own, and a
session id which is that of the browser's ASP.NET session, or another GUID.  The session of a
browser is given an id by a guest, and by nobody else.

`passedOn_user` says whose ids are sent: that of an account whose password somebody has logged
in with, under a name that the database takes for the account's, or one that no other request
and no account ever has.
`sameThread_iff` says which requests go on with a conversation: those of one account, in a
browser in which a guest has chatted before.  A guest never does.
-/

import CognitiveEngine.Web.Sessions

namespace CognitiveEngine
namespace Web

open CognitiveEngine.Graph CognitiveEngine.Machine CognitiveEngine.Server

/-- An event of the application. -/
abbrev WebEvent : Type := Event WebState WebRequest WebResponse

/-- The texts of GUIDs: hexadecimal digits and hyphens. -/
def Platform.WritesGuids (platform : Platform) : Prop := ∀ n, '_' ∉ (platform.newGuid n).toList

variable (platform : Platform)

/-- The request that is passed on to the core, if it is one to `StreamChat`. -/
def WebState.passedOn (s : WebState) : WebRequest → Option ChatRequest
  | .streamChat browser bearer prompt _ =>
      let r := s.browserRequest browser bearer prompt
      r.chatRequest (s.newGuids platform r).1
  | _ => none

/-- The browser of a request to `StreamChat`, and the account whose token is accepted. -/
def WebState.talker (s : WebState) : WebRequest → Option (String × Option String)
  | .streamChat browser bearer _ _ => some (browser, (s.principal bearer).map Token.nameIdentifier)
  | _ => none

/-- `Register` has made an account. -/
def Account (es : List WebEvent) (userId username password : String) : Prop :=
  ∃ e ∈ es, ∃ salt, e.input = .register true username password salt ∧
    e.output = .registered "User registered successfully." userId

/-- `Login` has answered with a token, to a name that the database takes for the one in it,
and the token has not expired since. -/
def LoggedIn (token : Token) (password : String) : List WebEvent → Prop :=
  Since
    (fun e => (∃ username, platform.sameName token.name username ∧
        e.input = .login true username password) ∧
      e.output = .loggedIn "Login successful." token token.nameIdentifier token.name)
    fun e => e.input ≠ .tokenExpires token

/-- A guest has chatted in a browser, and its session has not expired since. -/
def SessionOpen (browser : String) : List WebEvent → Prop :=
  Since (fun e => e.before.talker e.input = some (browser, none))
    fun e => e.input ≠ .sessionExpires browser

/-! ### One request -/

/-- The GUIDs a request to `StreamChat` draws. -/
def WebState.drawnBy (s : WebState) (browser : String) (bearer : Option Token) (prompt : String) :
    ℕ :=
  (s.newGuids platform (s.browserRequest browser bearer prompt)).2

/-- **What one request does** to the accounts, the tokens and the sessions of browsers. -/
inductive WebEffect (s : WebState) : WebRequest → WebResponse → WebState → Prop
  | registers {username password salt : String} {backend : Backend}
      (hrows : backend.context.users
        = s.backend.context.users ++ [s.backend.newUser platform username password salt])
      (hdrawn : backend.drawn = s.backend.drawn + 1) :
      WebEffect s (.register true username password salt)
        (.registered "User registered successfully." (platform.newGuid s.backend.drawn))
        { s with backend := backend }
  | logsIn {username password : String} {user : User} (hrow : user ∈ s.backend.context.users)
      (hname : platform.sameName user.username username = true)
      (hverify : platform.verify password user.passwordHash = true) :
      WebEffect s (.login true username password)
        (.loggedIn "Login successful." ⟨user.id, user.username⟩ user.id user.username)
        { s with issued := s.issued ++ [⟨user.id, user.username⟩] }
  | chats {browser prompt : String} {bearer : Option Token} {upstream : Upstream}
      {body : List String} {backend : Backend}
      (hrows : backend.context.users = s.backend.context.users)
      (hdrawn : s.drawnBy platform browser bearer prompt ≤ backend.drawn) :
      WebEffect s (.streamChat browser bearer prompt upstream) (.stream body)
        { (s.opened platform browser (s.browserRequest browser bearer prompt)).2 with
          backend := backend }
  | tokenExpires (token : Token) :
      WebEffect s (.tokenExpires token) .nothing
        { s with issued := s.issued.filter (· ≠ token) }
  | sessionExpires (browser : String) :
      WebEffect s (.sessionExpires browser) .nothing
        { s with tempSessionId := Function.update s.tempSessionId browser none }
  | nothing {request : WebRequest} {response : WebResponse}
      (hchat : s.talker request = none)
      (hquiet : ∀ browser, request ≠ .sessionExpires browser)
      (hkeeps : ∀ token, request ≠ .tokenExpires token)
      (hanswer : ∀ text userId, response ≠ .registered text userId) :
      WebEffect s request response s

variable {platform} {s s' : WebState}

/-- A guest needs a GUID for the user, and a session without an id one for itself. -/
theorem drawnBy_eq (browser : String) (bearer : Option Token) (prompt : String) :
    s.drawnBy platform browser bearer prompt
      = s.backend.drawn + (if s.principal bearer = none then 1 else 0) +
        (if s.tempSessionId browser = none then 1 else 0) := by
  unfold WebState.drawnBy WebState.newGuids WebState.browserRequest
  cases s.principal bearer <;> cases s.tempSessionId browser <;> rfl

/-- A guest gives the session an id if it has none. -/
theorem tempSessionId_opened (browser : String) (bearer : Option Token) (prompt : String) :
    (s.opened platform browser (s.browserRequest browser bearer prompt)).2.tempSessionId browser
      = if s.principal bearer = none ∧ s.tempSessionId browser = none then
          some (platform.newGuid (s.backend.drawn + 1))
        else s.tempSessionId browser := by
  have hopened : (s.opened platform browser (s.browserRequest browser bearer prompt)).2.tempSessionId
      browser = (s.browserRequest browser bearer prompt).sessionAfter
        (s.newGuids platform (s.browserRequest browser bearer prompt)).1 := Function.update_self ..
  rw [hopened]
  unfold BrowserRequest.sessionAfter BrowserRequest.sessionId WebState.newGuids
    WebState.browserRequest
  cases s.principal bearer <;> cases s.tempSessionId browser <;> rfl

/-- The row a login finds has a name that is taken for the one given, and the hash of the
password. -/
theorem authenticateAsync_eq_some {context : AppDbContext} {username password : String} {user : User}
    (h : authenticateAsync platform context username password = .authenticated (some user)) :
    user ∈ context.users ∧ platform.sameName user.username username = true ∧
      platform.verify password user.passwordHash = true := by
  rw [authenticateAsync, AppDbContext.singleOrDefault] at h
  cases hnamed : context.named platform username with
  | nil => simp [hnamed] at h
  | cons row rows =>
      cases rows with
      | cons row' rows => simp [hnamed] at h
      | nil =>
          simp only [hnamed, AuthReply.authenticated.injEq, Option.ite_none_right_eq_some,
            Option.some.injEq] at h
          obtain ⟨hverify, rfl⟩ := h
          have hrow : row ∈ context.named platform username :=
            hnamed ▸ List.mem_singleton_self _
          obtain ⟨hmem, hname⟩ := List.mem_filter.1 hrow
          exact ⟨hmem, hname, hverify⟩

/-- Messages that are saved leave the accounts alone. -/
theorem users_saveMessagesAsync {backend backend' : Backend} {sessionId prompt aiResponse : String}
    (h : saveMessagesAsync platform backend sessionId prompt aiResponse = some backend') :
    backend'.context.users = backend.context.users ∧ backend.drawn ≤ backend'.drawn := by
  rw [saveMessagesAsync_eq, Option.ite_none_right_eq_some] at h
  obtain ⟨-, hsaved⟩ := h
  obtain rfl := Option.some.inj hsaved
  exact ⟨rfl, Nat.le_add_right _ _⟩

/-- `StreamChat` opens the session of the browser, and may save what was said. -/
theorem webEffect_streamChat (browser : String) (bearer : Option Token) (prompt : String)
    (upstream : Upstream) :
    WebEffect platform s (.streamChat browser bearer prompt upstream)
      (s.streamChat platform browser bearer prompt upstream).1
      (s.streamChat platform browser bearer prompt upstream).2 := by
  let r := s.browserRequest browser bearer prompt
  have hunsaved (body : List String) :
      WebEffect platform s (.streamChat browser bearer prompt upstream) (.stream body)
        (s.opened platform browser r).2 := .chats (s := s) rfl (Nat.le_refl _)
  unfold WebState.streamChat
  cases upstream.error with
  | some error => exact hunsaved _
  | none =>
      dsimp only
      by_cases huser : r.isAuthenticated = true
      · rw [if_pos huser]
        cases hsave : saveMessagesAsync platform (s.opened platform browser r).2.backend
            (s.opened platform browser r).1 prompt (String.join upstream.chunks) with
        | none => exact hunsaved _
        | some backend =>
            obtain ⟨hrows, hdrawn⟩ := users_saveMessagesAsync hsave
            exact .chats hrows hdrawn
      · rw [if_neg huser]
        exact hunsaved _

/-- **Every request does one of these.** -/
theorem webEffect_of_step {request : WebRequest} {response : WebResponse}
    (hd : s.backend.Drawn platform) (h : WebStep platform s request response s') :
    WebEffect platform s request response s' := by
  cases request with
  | register valid username password salt =>
      cases valid with
      | false =>
          obtain ⟨rfl, rfl⟩ := Prod.mk.inj h
          exact .nothing rfl (fun _ => WebRequest.noConfusion) (fun _ => WebRequest.noConfusion)
            fun _ _ => WebResponse.noConfusion
      | true =>
          rw [WebStep, WebState.serve, if_pos rfl, WebState.register, registerAsync,
            addUser_newUser hd] at h
          obtain ⟨rfl, rfl⟩ := Prod.mk.inj h
          exact .registers rfl rfl
  | login valid username password =>
      cases valid with
      | false =>
          obtain ⟨rfl, rfl⟩ := Prod.mk.inj h
          exact .nothing rfl (fun _ => WebRequest.noConfusion) (fun _ => WebRequest.noConfusion)
            fun _ _ => WebResponse.noConfusion
      | true =>
          rw [WebStep, WebState.serve, if_pos rfl, WebState.login] at h
          split at h
          · rename_i user hfound
            obtain ⟨rfl, rfl⟩ := Prod.mk.inj h
            obtain ⟨hrow, hname, hverify⟩ := authenticateAsync_eq_some hfound
            exact .logsIn hrow hname hverify
          · obtain ⟨rfl, rfl⟩ := Prod.mk.inj h
            exact .nothing rfl (fun _ => WebRequest.noConfusion) (fun _ => WebRequest.noConfusion)
              fun _ _ => WebResponse.noConfusion
          · obtain ⟨rfl, rfl⟩ := Prod.mk.inj h
            exact .nothing rfl (fun _ => WebRequest.noConfusion) (fun _ => WebRequest.noConfusion)
              fun _ _ => WebResponse.noConfusion
  | streamChat browser bearer prompt upstream =>
      have hstream : s.streamChat platform browser bearer prompt upstream = (response, s') := h
      have heffect : WebEffect platform s (.streamChat browser bearer prompt upstream)
          (s.streamChat platform browser bearer prompt upstream).1
          (s.streamChat platform browser bearer prompt upstream).2 :=
        webEffect_streamChat browser bearer prompt upstream
      rwa [hstream] at heffect
  | getSessionList bearer =>
      obtain ⟨rfl, rfl⟩ := Prod.mk.inj h
      refine .nothing rfl (fun _ => WebRequest.noConfusion) (fun _ => WebRequest.noConfusion)
        fun _ _ hregistered => ?_
      unfold WebState.getSessionList at hregistered
      split at hregistered
      · cases hregistered
      · split at hregistered <;> cases hregistered
  | tokenExpires token =>
      obtain ⟨rfl, rfl⟩ := Prod.mk.inj h
      exact .tokenExpires token
  | sessionExpires browser =>
      obtain ⟨rfl, rfl⟩ := Prod.mk.inj h
      exact .sessionExpires browser

/-! ### The session of a browser -/

section Effects

variable {request : WebRequest} {response : WebResponse}

/-- **What is passed on:** the id of the caller or that of a new guest, and the id in the
session of the browser or a new one. -/
theorem WebEffect.passedOn_eq_some (he : WebEffect platform s request response s') {q : ChatRequest}
    (h : s.passedOn platform request = some q) :
    ∃ browser account, s.talker request = some (browser, account) ∧
      q.userId = account.getD ("guest_" ++ platform.newGuid s.backend.drawn) ∧
      ∃ n, s.backend.drawn ≤ n ∧
        q.sessionId = (s.tempSessionId browser).getD (platform.newGuid n) ∧
        (s.tempSessionId browser = none → n < s'.backend.drawn) := by
  cases request with
  | streamChat browser bearer prompt upstream =>
      refine ⟨browser, _, rfl, ?_⟩
      have hdrawn : s.drawnBy platform browser bearer prompt ≤ s'.backend.drawn := by
        cases he with
        | chats hrows hdrawn => exact hdrawn
        | nothing hchat => cases hchat
      rw [drawnBy_eq] at hdrawn
      cases hprincipal : s.principal bearer with
      | none =>
          simp only [WebState.passedOn, WebState.browserRequest, BrowserRequest.chatRequest,
            BrowserRequest.userId, BrowserRequest.sessionId, WebState.newGuids, hprincipal,
            Option.isSome_none, Option.map_none, Option.map_some, Option.some.injEq,
            Bool.false_eq_true, if_false] at h
          subst h
          refine ⟨rfl, _, Nat.le_succ _, rfl, fun htemp => ?_⟩
          rw [if_pos hprincipal, if_pos htemp] at hdrawn
          omega
      | some token =>
          simp only [WebState.passedOn, WebState.browserRequest, BrowserRequest.chatRequest,
            BrowserRequest.userId, BrowserRequest.sessionId, WebState.newGuids, hprincipal,
            Option.isSome_some, Option.map_some, Option.some.injEq, if_true] at h
          subst h
          refine ⟨rfl, _, Nat.le_refl _, rfl, fun htemp => ?_⟩
          rw [if_pos htemp] at hdrawn
          omega
  | _ => cases h

/-- The GUIDs drawn do not come back. -/
theorem WebEffect.drawn_le (h : WebEffect platform s request response s') :
    s.backend.drawn ≤ s'.backend.drawn := by
  cases h with
  | registers hrows hdrawn => exact hdrawn ▸ Nat.le_succ _
  | chats hrows hdrawn => exact le_trans (by rw [drawnBy_eq]; omega) hdrawn
  | _ => exact Nat.le_refl _

/-- A guest draws one. -/
theorem WebEffect.drawn_lt {browser : String} (h : WebEffect platform s request response s')
    (hguest : s.talker request = some (browser, none)) : s.backend.drawn < s'.backend.drawn := by
  cases h with
  | @chats b prompt bearer upstream _ backend hrows hdrawn =>
      obtain ⟨-, hnone⟩ := Prod.mk.inj (Option.some.inj hguest)
      rw [Option.map_eq_none_iff] at hnone
      refine Nat.lt_of_lt_of_le ?_ hdrawn
      rw [drawnBy_eq, if_pos hnone]
      omega
  | nothing hchat => exact absurd (hchat.symm.trans hguest) nofun
  | _ => cases hguest

/-- **The id in the session of a browser** stays, is removed when the session expires, or is
a new one when a guest chats and there is none. -/
theorem WebEffect.tempSessionId (h : WebEffect platform s request response s') (browser : String) :
    (s'.tempSessionId browser = s.tempSessionId browser ∧ request ≠ .sessionExpires browser ∧
        (s.talker request = some (browser, none) → (s.tempSessionId browser).isSome)) ∨
      (request = .sessionExpires browser ∧ s'.tempSessionId browser = none) ∨
      (s.talker request = some (browser, none) ∧ s.tempSessionId browser = none ∧
        ∃ n, s.backend.drawn ≤ n ∧ n < s'.backend.drawn ∧
          s'.tempSessionId browser = some (platform.newGuid n)) := by
  cases h with
  | registers hrows hdrawn => exact .inl ⟨rfl, nofun, nofun⟩
  | logsIn hrow hname hverify => exact .inl ⟨rfl, nofun, nofun⟩
  | tokenExpires token => exact .inl ⟨rfl, nofun, nofun⟩
  | nothing hchat hquiet =>
      exact .inl ⟨rfl, hquiet browser, fun hguest => absurd (hchat.symm.trans hguest) nofun⟩
  | sessionExpires b =>
      by_cases hb : b = browser
      · subst hb
        exact .inr (.inl ⟨rfl, Function.update_self ..⟩)
      · exact .inl ⟨Function.update_of_ne (Ne.symm hb) .., by simpa using hb, nofun⟩
  | @chats b prompt bearer upstream _ backend hrows hdrawn =>
      by_cases hb : b = browser
      · subst hb
        have hafter : (s.opened platform b (s.browserRequest b bearer prompt)).2.tempSessionId b
            = if s.principal bearer = none ∧ s.tempSessionId b = none then
                some (platform.newGuid (s.backend.drawn + 1))
              else s.tempSessionId b := tempSessionId_opened b bearer prompt
        by_cases hnew : s.principal bearer = none ∧ s.tempSessionId b = none
        · rw [if_pos hnew] at hafter
          refine .inr (.inr ⟨?_, hnew.2, s.backend.drawn + 1, Nat.le_succ _, ?_, hafter⟩)
          · rw [WebState.talker, hnew.1]
            rfl
          · refine Nat.lt_of_lt_of_le ?_ hdrawn
            rw [drawnBy_eq, if_pos hnew.1, if_pos hnew.2]
            omega
        · rw [if_neg hnew] at hafter
          refine .inl ⟨hafter, nofun, fun hguest => ?_⟩
          obtain ⟨-, hnone⟩ := Prod.mk.inj (Option.some.inj hguest)
          refine Option.isSome_iff_ne_none.2 fun htemp => hnew ⟨?_, htemp⟩
          exact Option.map_eq_none_iff.1 hnone
      · refine .inl ⟨Function.update_of_ne (Ne.symm hb) .., nofun, fun hguest => ?_⟩
        exact absurd (Prod.mk.inj (Option.some.inj hguest)).1 hb

end Effects

/-! ### What has happened, and what is there -/

/-- **What the events so far say of the state:** every account has been registered, every
token answered to a login, and every session id given to a browser by a guest. -/
structure Known (platform : Platform) (es : List WebEvent) (s : WebState) : Prop where
  drawn : s.backend.Drawn platform
  rows : ∀ user ∈ s.backend.context.users, ∃ password salt,
    user.passwordHash = platform.hashPassword salt password ∧
      Account es user.id user.username password
  tokens : ∀ token ∈ s.issued, ∃ password,
    Account es token.nameIdentifier token.name password ∧ LoggedIn platform token password es
  ids : ∀ e ∈ es, ∀ text userId, e.output = .registered text userId →
    ∃ n < s.backend.drawn, userId = platform.newGuid n
  guests : ∀ e ∈ es, ∀ browser, e.before.talker e.input = some (browser, none) →
    e.before.backend.drawn < s.backend.drawn
  sessions : ∀ browser, (s.tempSessionId browser).isSome ↔ SessionOpen browser es
  session_ids : ∀ browser g, s.tempSessionId browser = some g →
    ∃ n < s.backend.drawn, g = platform.newGuid n
  apart : ∀ browser browser' g, s.tempSessionId browser = some g →
    s.tempSessionId browser' = some g → browser = browser'

theorem known_fresh : Known platform [] .fresh where
  drawn := drawn_fresh
  rows := List.forall_mem_nil _
  tokens := List.forall_mem_nil _
  ids := List.forall_mem_nil _
  guests := List.forall_mem_nil _
  sessions _ := iff_of_false nofun not_since_nil
  session_ids _ _ := nofun
  apart _ _ _ := nofun

section Step

variable {es : List WebEvent} {request : WebRequest} {response : WebResponse}

theorem Account.concat {userId username password : String} (e : WebEvent)
    (h : Account es userId username password) : Account (es ++ [e]) userId username password := by
  obtain ⟨x, hx, hregistered⟩ := h
  exact ⟨x, List.mem_append_left _ hx, hregistered⟩

/-- The accounts. -/
theorem Known.rows_step (h : Known platform es s) (he : WebEffect platform s request response s') :
    ∀ user ∈ s'.backend.context.users, ∃ password salt,
      user.passwordHash = platform.hashPassword salt password ∧
        Account (es ++ [⟨s, request, response⟩]) user.id user.username password := by
  have hold : ∀ user ∈ s.backend.context.users, ∃ password salt,
      user.passwordHash = platform.hashPassword salt password ∧
        Account (es ++ [⟨s, request, response⟩]) user.id user.username password := by
    intro user huser
    obtain ⟨password, salt, hhash, haccount⟩ := h.rows user huser
    exact ⟨password, salt, hhash, haccount.concat _⟩
  cases he with
  | @registers username password salt backend hrows hdrawn =>
      intro user huser
      rw [hrows, List.mem_append, List.mem_singleton] at huser
      rcases huser with huser | rfl
      · exact hold user huser
      · exact ⟨password, salt, rfl, _, List.mem_append_right _ (List.mem_singleton_self _), salt,
          rfl, rfl⟩
  | chats hrows hdrawn =>
      intro user huser
      rw [hrows] at huser
      exact hold user huser
  | _ => exact hold

/-- The tokens. -/
theorem Known.tokens_step (h : Known platform es s) (he : WebEffect platform s request response s') :
    ∀ token ∈ s'.issued, ∃ password,
      Account (es ++ [⟨s, request, response⟩]) token.nameIdentifier token.name password ∧
        LoggedIn platform token password (es ++ [⟨s, request, response⟩]) := by
  have hold : ∀ token ∈ s.issued, request ≠ .tokenExpires token → ∃ password,
      Account (es ++ [⟨s, request, response⟩]) token.nameIdentifier token.name password ∧
        LoggedIn platform token password (es ++ [⟨s, request, response⟩]) := by
    intro token htoken hkeeps
    obtain ⟨password, haccount, hlogin⟩ := h.tokens token htoken
    exact ⟨password, haccount.concat _, since_concat.2 (.inr ⟨hlogin, hkeeps⟩)⟩
  cases he with
  | @logsIn username password user hrow hname hverify =>
      intro token htoken
      rcases List.mem_append.1 htoken with htoken | htoken
      · exact hold token htoken nofun
      · obtain rfl := List.mem_singleton.1 htoken
        obtain ⟨known, salt, hhash, haccount⟩ := h.rows user hrow
        rw [hhash, platform.verify_hashPassword] at hverify
        subst hverify
        exact ⟨password, haccount.concat _,
          since_concat.2 (.inl ⟨⟨username, hname, rfl⟩, rfl⟩)⟩
  | tokenExpires token =>
      intro token' htoken
      obtain ⟨hissued, hne⟩ := List.mem_filter.1 htoken
      refine hold token' hissued fun hexpires => of_decide_eq_true hne ?_
      exact (WebRequest.tokenExpires.inj hexpires).symm
  | nothing hchat hquiet hkeeps => exact fun token htoken => hold token htoken (hkeeps token)
  | _ => exact fun token htoken => hold token htoken nofun

/-- The ids. -/
theorem Known.ids_step (h : Known platform es s) (he : WebEffect platform s request response s') :
    ∀ e ∈ es ++ [⟨s, request, response⟩], ∀ text userId, e.output = .registered text userId →
      ∃ n < s'.backend.drawn, userId = platform.newGuid n := by
  refine List.forall_mem_append.2 ⟨fun e hmem text userId hout => ?_, ?_⟩
  · obtain ⟨n, hn, hid⟩ := h.ids e hmem text userId hout
    exact ⟨n, Nat.lt_of_lt_of_le hn he.drawn_le, hid⟩
  · refine List.forall_mem_singleton.2 fun text userId hout => ?_
    dsimp only at hout
    cases he with
    | registers hrows hdrawn =>
        cases hout
        exact ⟨_, hdrawn ▸ Nat.lt_succ_self _, rfl⟩
    | nothing hchat hquiet hkeeps hanswer => exact absurd hout (hanswer text userId)
    | _ => cases hout

/-- The rows have ids that were drawn. -/
theorem WebEffect.drawn (he : WebEffect platform s request response s')
    (h : s.backend.Drawn platform) : s'.backend.Drawn platform := by
  have hold : ∀ user ∈ s.backend.context.users,
      ∃ n < s'.backend.drawn, user.id = platform.newGuid n := by
    intro user huser
    obtain ⟨n, hn, hid⟩ := h user huser
    exact ⟨n, Nat.lt_of_lt_of_le hn he.drawn_le, hid⟩
  cases he with
  | registers hrows hdrawn =>
      intro user huser
      rw [hrows, List.mem_append, List.mem_singleton] at huser
      rcases huser with huser | rfl
      · exact hold user huser
      · exact ⟨s.backend.drawn, hdrawn ▸ Nat.lt_succ_self _, rfl⟩
  | chats hrows hdrawn =>
      intro user huser
      rw [hrows] at huser
      exact hold user huser
  | _ => exact hold

/-- The sessions of the browsers. -/
theorem Known.sessions_step (h : Known platform es s)
    (he : WebEffect platform s request response s') (browser : String) :
    (s'.tempSessionId browser).isSome ↔ SessionOpen browser (es ++ [⟨s, request, response⟩]) := by
  rw [SessionOpen, since_concat, ← SessionOpen, ← h.sessions]
  dsimp only
  rcases he.tempSessionId browser with ⟨hafter, hquiet, hguest⟩ | ⟨hexpires, hafter⟩ |
    ⟨hguest, -, n, -, -, hafter⟩
  · rw [hafter]
    exact ⟨fun hsome => .inr ⟨hsome, hquiet⟩, fun hold => hold.elim hguest And.left⟩
  · rw [hafter, hexpires]
    exact iff_of_false nofun fun hold => hold.elim nofun fun hkept => hkept.2 rfl
  · rw [hafter]
    exact iff_of_true rfl (.inl hguest)

/-- **One request more.** -/
theorem Known.step (h : Known platform es s) (hstep : WebStep platform s request response s') :
    Known platform (es ++ [⟨s, request, response⟩]) s' := by
  have he := webEffect_of_step h.drawn hstep
  have hids : ∀ browser g, s'.tempSessionId browser = some g → s.tempSessionId browser = some g ∨
      (s.talker request = some (browser, none) ∧
        ∃ n, s.backend.drawn ≤ n ∧ n < s'.backend.drawn ∧ g = platform.newGuid n) := by
    intro browser g hg
    rcases he.tempSessionId browser with ⟨hafter, -⟩ | ⟨-, hafter⟩ | ⟨hguest, -, n, hn, hn', hafter⟩
    · exact .inl (hafter ▸ hg)
    · exact absurd (hafter.symm.trans hg) nofun
    · exact .inr ⟨hguest, n, hn, hn', Option.some.inj (hg.symm.trans hafter)⟩
  -- An id that a session had before is none that is drawn now.
  have hnew : ∀ browser browser' g, s.tempSessionId browser = some g →
      ¬ (s.talker request = some (browser', none) ∧
        ∃ n, s.backend.drawn ≤ n ∧ n < s'.backend.drawn ∧ g = platform.newGuid n) := by
    rintro browser browser' g hold ⟨-, n, hn, -, hg⟩
    obtain ⟨m, hm, rfl⟩ := h.session_ids browser g hold
    exact absurd (platform.newGuid_injective hg) (by omega)
  refine ⟨he.drawn h.drawn, h.rows_step he, h.tokens_step he, h.ids_step he, ?_,
    h.sessions_step he, fun browser g hg => ?_, fun browser browser' g hg hg' => ?_⟩
  · refine List.forall_mem_append.2 ⟨fun e hmem browser hguest => ?_,
      List.forall_mem_singleton.2 fun browser hguest => he.drawn_lt hguest⟩
    exact Nat.lt_of_lt_of_le (h.guests e hmem browser hguest) he.drawn_le
  · rcases hids browser g hg with hold | ⟨-, n, -, hn, rfl⟩
    · obtain ⟨n, hn, rfl⟩ := h.session_ids browser g hold
      exact ⟨n, Nat.lt_of_lt_of_le hn he.drawn_le, rfl⟩
    · exact ⟨n, hn, rfl⟩
  · rcases hids browser g hg with hold | hdrawn <;> rcases hids browser' g hg' with hold' | hdrawn'
    · exact h.apart browser browser' g hold hold'
    · exact absurd hdrawn' (hnew browser browser' g hold)
    · exact absurd hdrawn (hnew browser' browser g hold')
    · exact (Prod.mk.inj (Option.some.inj (hdrawn.1.symm.trans hdrawn'.1))).1

theorem Known.effect (h : Known platform es s) (request : WebRequest) :
    WebEffect platform s request (s.serve platform request).1 (s.serve platform request).2 :=
  webEffect_of_step h.drawn rfl

/-- **What is known at the end of a sequence of requests.** -/
theorem known_of_trace (ht : Trace (WebStep platform) .fresh es s) : Known platform es s := by
  have hknown : Known platform ([] ++ es) s :=
    ht.history (fun hknown hstep => hknown.step hstep) known_fresh
  exact hknown

end Step

/-! ### Whose ids are sent -/

section Users

variable {before middle after : List WebEvent} {e f : WebEvent} {q q' : ChatRequest}

/-- The id of a guest is not a GUID. -/
theorem guest_ne (hguid : platform.WritesGuids) (guid : String) (n : ℕ) :
    "guest_" ++ guid ≠ platform.newGuid n := by
  intro heq
  refine hguid n (heq ▸ ?_)
  rw [String.toList_append]
  exact List.mem_append_left _ (by decide)

/-- What is known when an event happens. -/
theorem known_before (ht : Trace (WebStep platform) .fresh (before ++ e :: after) s') :
    Known platform before e.before :=
  known_of_trace ht.split.1

/-- The id that is sent is in the caller's token, or it is that of a new guest. -/
theorem Known.userId_cases {request : WebRequest} (h : Known platform before s)
    (hq : s.passedOn platform request = some q) :
    (∃ browser token prompt upstream password,
      request = .streamChat browser (some token) prompt upstream ∧
        s.talker request = some (browser, some q.userId) ∧ token.nameIdentifier = q.userId ∧
        Account before q.userId token.name password ∧
        LoggedIn platform token password before) ∨
      ∃ browser, s.talker request = some (browser, none) ∧
        q.userId = "guest_" ++ platform.newGuid s.backend.drawn := by
  obtain ⟨browser, account, htalker, huser, -⟩ := (h.effect request).passedOn_eq_some hq
  cases account with
  | none => exact .inr ⟨browser, htalker, huser⟩
  | some userId =>
      cases request with
      | streamChat b bearer prompt upstream =>
          obtain ⟨rfl, hclaims⟩ := Prod.mk.inj (Option.some.inj htalker)
          obtain ⟨token, hprincipal, rfl⟩ := Option.map_eq_some_iff.1 hclaims
          obtain ⟨rfl, hissued⟩ := Option.filter_eq_some_iff.1 hprincipal
          obtain ⟨password, haccount, hlogin⟩ := h.tokens token (of_decide_eq_true hissued)
          rw [Option.getD_some] at huser
          rw [huser]
          exact .inl ⟨b, token, prompt, upstream, password, rfl, htalker, rfl, haccount, hlogin⟩
      | _ => cases htalker

/-- The id of an account is a GUID. -/
theorem Known.account {userId username password : String} (h : Known platform before s)
    (haccount : Account before userId username password) :
    ∃ n, userId = platform.newGuid n := by
  obtain ⟨e, he, salt, -, hout⟩ := haccount
  obtain ⟨n, -, hid⟩ := h.ids e he _ _ hout
  exact ⟨n, hid⟩

/-- **A guest is nobody else:** of two requests, one by a guest, the ids differ. -/
theorem userId_ne (hguid : platform.WritesGuids)
    (ht : Trace (WebStep platform) .fresh (before ++ e :: (middle ++ f :: after)) s')
    (hq : e.before.passedOn platform e.input = some q)
    (hq' : f.before.passedOn platform f.input = some q')
    (hguest : (∃ browser, e.before.talker e.input = some (browser, none)) ∨
      ∃ browser, f.before.talker f.input = some (browser, none)) : q.userId ≠ q'.userId := by
  have he : Known platform before e.before := known_before ht
  have hf : Known platform (before ++ e :: middle) f.before := by
    rw [← List.cons_append, ← List.append_assoc] at ht
    exact known_before ht
  intro heq
  rcases he.userId_cases hq with ⟨b, token, p, u, password, -, htalker, -, haccount, -⟩ |
    ⟨b, htalker, huser⟩ <;>
  rcases hf.userId_cases hq' with ⟨b', token', p', u', password', -, htalker', -, haccount', -⟩ |
    ⟨b', htalker', huser'⟩
  · rcases hguest with ⟨browser, hguest⟩ | ⟨browser, hguest⟩
    · exact absurd (htalker.symm.trans hguest) (by simp)
    · exact absurd (htalker'.symm.trans hguest) (by simp)
  · obtain ⟨n, hid⟩ := he.account haccount
    exact guest_ne hguid _ n (huser'.symm.trans (heq.symm.trans hid))
  · obtain ⟨n, hid⟩ := hf.account haccount'
    exact guest_ne hguid _ n (huser.symm.trans (heq.trans hid))
  · -- Between the two the GUID of the first has been drawn.
    have hlt := hf.guests e (List.mem_append_right _ List.mem_cons_self) b htalker
    rw [huser, huser', String.append_right_inj] at heq
    exact hlt.ne (platform.newGuid_injective heq)

/-- **Whose id is passed on.**  Either a caller is logged in, with a token that a login with
the registered password, under a name the database takes for the registered one, was answered
with and that has not expired since, and the id is that of the account; or it is the id of a
guest, which no other request of the whole sequence is passed on with, and which no account
is ever given. -/
theorem passedOn_user (hguid : platform.WritesGuids)
    (ht : Trace (WebStep platform) .fresh (before ++ e :: after) s')
    (hq : e.before.passedOn platform e.input = some q) :
    (∃ browser token prompt upstream password,
      e.input = .streamChat browser (some token) prompt upstream ∧
        token.nameIdentifier = q.userId ∧ Account before q.userId token.name password ∧
        LoggedIn platform token password before) ∨
      (∃ guid, q.userId = "guest_" ++ guid) ∧
        (∀ f ∈ before ++ after, ∀ q', f.before.passedOn platform f.input = some q' →
          q'.userId ≠ q.userId) ∧
        ∀ f ∈ before ++ e :: after, ∀ text userId, f.output = .registered text userId →
          userId ≠ q.userId := by
  have he : Known platform before e.before := known_before ht
  rcases he.userId_cases hq with ⟨b, token, p, u, password, hinput, -, hid, haccount, hlogin⟩ |
    ⟨b, htalker, huser⟩
  · exact .inl ⟨b, token, p, u, password, hinput, hid, haccount, hlogin⟩
  · refine .inr ⟨⟨_, huser⟩, fun f hf q' hq' => ?_, fun f hf text userId hout heq => ?_⟩
    · rcases List.mem_append.1 hf with hf | hf
      · obtain ⟨before, middle, rfl⟩ := List.append_of_mem hf
        rw [List.append_assoc, List.cons_append] at ht
        exact userId_ne hguid ht hq' hq (.inr ⟨b, htalker⟩)
      · obtain ⟨middle, after, rfl⟩ := List.append_of_mem hf
        exact (userId_ne hguid ht hq hq' (.inl ⟨b, htalker⟩)).symm
    · obtain ⟨n, -, hid⟩ := (known_of_trace ht).ids f hf text userId hout
      exact guest_ne hguid _ n (huser.symm.trans (heq.symm.trans hid))

/-! ### Which conversation goes on -/

/-- The id of a session, which a browser has if it is kept, until its session expires. -/
structure Held (platform : Platform) (g browser : String) (kept : Prop) (es : List WebEvent)
    (s : WebState) : Prop where
  drawn : ∃ n < s.backend.drawn, g = platform.newGuid n
  held : ∀ b, s.tempSessionId b = some g ↔
    b = browser ∧ kept ∧ ∀ x ∈ es, x.input ≠ .sessionExpires browser

theorem Held.step {g browser : String} {kept : Prop} {es : List WebEvent} {request : WebRequest}
    {response : WebResponse} (h : Held platform g browser kept es s)
    (he : WebEffect platform s request response s') :
    Held platform g browser kept (es ++ [⟨s, request, response⟩]) s' := by
  obtain ⟨m, hm, hg⟩ := h.drawn
  refine ⟨⟨m, Nat.lt_of_lt_of_le hm he.drawn_le, hg⟩, fun b => ?_⟩
  rw [List.forall_mem_append, List.forall_mem_singleton]
  rcases he.tempSessionId b with ⟨hafter, hquiet, -⟩ | ⟨hexpires, hafter⟩ |
    ⟨-, hnone, n, hn, -, hafter⟩
  · rw [hafter, h.held]
    constructor
    · rintro ⟨rfl, hkept, hall⟩
      exact ⟨rfl, hkept, hall, hquiet⟩
    · rintro ⟨rfl, hkept, hall, -⟩
      exact ⟨rfl, hkept, hall⟩
  · rw [hafter]
    refine iff_of_false nofun ?_
    rintro ⟨rfl, -, -, hquiet⟩
    exact hquiet hexpires
  · rw [hafter]
    refine iff_of_false (fun heq => ?_) ?_
    · have hnm : n = m := platform.newGuid_injective ((Option.some.inj heq).trans hg)
      omega
    · rintro ⟨rfl, hkept, hall, -⟩
      exact absurd (hnone.symm.trans ((h.held b).2 ⟨rfl, hkept, hall⟩)) nofun

/-- **A request of an account** leaves its session id to the browser if that had it before. -/
theorem Known.held (h : Known platform before s) {request : WebRequest} {response : WebResponse}
    (he : WebEffect platform s request response s') (hq : s.passedOn platform request = some q)
    {browser userId : String} (htalker : s.talker request = some (browser, some userId)) :
    Held platform q.sessionId browser (s.tempSessionId browser).isSome [] s' := by
  obtain ⟨b, account, htalker', -, n, hn, hsession, hdrawn⟩ := he.passedOn_eq_some hq
  obtain ⟨rfl, -⟩ := Prod.mk.inj (Option.some.inj (htalker'.symm.trans htalker))
  -- The caller is no guest, so that no session is given an id.
  have hkeeps : ∀ b', s'.tempSessionId b' = s.tempSessionId b' := by
    intro b'
    rcases he.tempSessionId b' with ⟨hafter, -⟩ | ⟨hexpires, -⟩ | ⟨hguest, -⟩
    · exact hafter
    · rw [hexpires] at htalker
      cases htalker
    · exact absurd (hguest.symm.trans htalker) (by simp)
  cases htemp : s.tempSessionId b with
  | some g =>
      rw [htemp, Option.getD_some] at hsession
      obtain ⟨m, hm, hg⟩ := h.session_ids b g htemp
      refine ⟨⟨m, Nat.lt_of_lt_of_le hm he.drawn_le, hsession.trans hg⟩, fun b' => ?_⟩
      rw [hkeeps, hsession]
      constructor
      · exact fun hb => ⟨h.apart b' b g hb htemp, rfl, List.forall_mem_nil _⟩
      · rintro ⟨rfl, -⟩
        exact htemp
  | none =>
      rw [htemp, Option.getD_none] at hsession
      refine ⟨⟨n, hdrawn htemp, hsession⟩, fun b' => ?_⟩
      rw [hkeeps, hsession]
      refine iff_of_false (fun hb => ?_) nofun
      obtain ⟨m, hm, hg⟩ := h.session_ids b' _ hb
      exact absurd (platform.newGuid_injective hg) (by omega)

/-- Session ids are GUIDs. -/
theorem Known.sessionId (h : Known platform before s) {request : WebRequest}
    (hq : s.passedOn platform request = some q) : ∃ n, q.sessionId = platform.newGuid n := by
  obtain ⟨b, account, -, -, n, -, hsession, -⟩ := (h.effect request).passedOn_eq_some hq
  cases htemp : s.tempSessionId b with
  | some g =>
      obtain ⟨m, -, hg⟩ := h.session_ids b g htemp
      exact ⟨m, by rw [hsession, htemp, Option.getD_some, hg]⟩
  | none => exact ⟨n, by rw [hsession, htemp, Option.getD_none]⟩

/-- With GUIDs for session ids, conversations do not cross. -/
theorem threadId_eq_iff (hsession : '_' ∉ q.sessionId.toList) (hsession' : '_' ∉ q'.sessionId.toList) :
    (conversationOf q).threadId = (conversationOf q').threadId ↔
      q.userId = q'.userId ∧ q.sessionId = q'.sessionId := by
  have hover : ∀ x y : String, '_' ∈ (x ++ "_" ++ y).toList := by
    intro x y
    rw [String.toList_append, String.toList_append]
    exact List.mem_append_left _ (List.mem_append_right _ (by decide))
  constructor
  · intro hthread
    by_contra hne
    have hcross : (conversationOf q).Crosses (conversationOf q') := by
      refine crosses_iff.2 ⟨fun heq => hne ?_, hthread⟩
      exact ⟨congrArg Conversation.userId heq, congrArg Conversation.sessionId heq⟩
    obtain ⟨x, ⟨-, heq⟩ | ⟨-, heq⟩⟩ := hcross
    · have hsame : q'.sessionId = x ++ "_" ++ q.sessionId := heq
      exact hsession' (hsame ▸ hover x q.sessionId)
    · have hsame : q.sessionId = x ++ "_" ++ q'.sessionId := heq
      exact hsession (hsame ▸ hover x q'.sessionId)
  · rintro ⟨huser, hsession⟩
    rw [conversationOf, conversationOf, huser, hsession]

/-- **Which requests go on with a conversation.**  Two requests are passed on in one
conversation exactly when they are of one account and come from one browser, in which a guest
has chatted before the first of them, and whose session has not expired since. -/
theorem sameThread_iff (hguid : platform.WritesGuids)
    (ht : Trace (WebStep platform) .fresh (before ++ e :: (middle ++ f :: after)) s')
    (hq : e.before.passedOn platform e.input = some q)
    (hq' : f.before.passedOn platform f.input = some q') :
    (conversationOf q).threadId = (conversationOf q').threadId ↔
      ∃ browser userId, e.before.talker e.input = some (browser, some userId) ∧
        f.before.talker f.input = some (browser, some userId) ∧ SessionOpen browser before ∧
        ∀ x ∈ middle, x.input ≠ .sessionExpires browser := by
  obtain ⟨hbefore, s₁, hstep, hrest⟩ := ht.split
  have he : Known platform before e.before := known_of_trace hbefore
  have hf : Known platform (before ++ e :: middle) f.before := by
    rw [← List.cons_append, ← List.append_assoc] at ht
    exact known_before ht
  obtain ⟨n, hn⟩ := he.sessionId hq
  obtain ⟨n', hn'⟩ := hf.sessionId hq'
  rw [threadId_eq_iff (hn ▸ hguid n) (hn' ▸ hguid n')]
  -- The session id of the first request, when the second one comes.
  have hheld {browser userId : String} (htalker : e.before.talker e.input = some (browser, some userId)) :
      Held platform q.sessionId browser (e.before.tempSessionId browser).isSome middle f.before := by
    have heffect := webEffect_of_step he.drawn hstep
    obtain ⟨hmiddle, -⟩ := hrest.split
    exact (hmiddle.history (P := fun es s => s.backend.Drawn platform ∧
      Held platform q.sessionId browser (e.before.tempSessionId browser).isSome es s)
      (fun hs hstep => ⟨(webEffect_of_step hs.1 hstep).drawn hs.1,
        hs.2.step (webEffect_of_step hs.1 hstep)⟩)
      ⟨heffect.drawn he.drawn, he.held heffect hq htalker⟩).2
  -- The second request has that session id when the session of its browser has it.
  have hsame {browser browser' userId userId' : String}
      (htalker : e.before.talker e.input = some (browser, some userId))
      (htalker' : f.before.talker f.input = some (browser', some userId')) :
      q.sessionId = q'.sessionId ↔ f.before.tempSessionId browser' = some q.sessionId := by
    obtain ⟨b, account, hb, -, m, hm, hsession, -⟩ := (hf.effect f.input).passedOn_eq_some hq'
    obtain ⟨rfl, -⟩ := Prod.mk.inj (Option.some.inj (hb.symm.trans htalker'))
    cases htemp : f.before.tempSessionId b with
    | some g => rw [hsession, htemp, Option.getD_some, Option.some_inj, eq_comm]
    | none =>
        refine iff_of_false (fun heq => ?_) nofun
        obtain ⟨k, hk, hg⟩ := (hheld htalker).drawn
        rw [hsession, htemp, Option.getD_none, hg] at heq
        exact absurd (platform.newGuid_injective heq) (by omega)
  constructor
  · rintro ⟨huser, hsession⟩
    rcases he.userId_cases hq with ⟨b, -, -, -, -, -, htalker, -⟩ | ⟨b, hguest, -⟩
    · rcases hf.userId_cases hq' with ⟨b', -, -, -, -, -, htalker', -⟩ | ⟨b', hguest, -⟩
      · obtain ⟨rfl, hkept, hquiet⟩ :=
          ((hheld htalker).held b').1 ((hsame htalker htalker').1 hsession)
        rw [← huser] at htalker'
        exact ⟨_, _, htalker, htalker', (he.sessions _).1 hkept, hquiet⟩
      · exact absurd huser (userId_ne hguid ht hq hq' (.inr ⟨b', hguest⟩))
    · exact absurd huser (userId_ne hguid ht hq hq' (.inl ⟨b, hguest⟩))
  · rintro ⟨browser, userId, htalker, htalker', hopen, hquiet⟩
    have hid {s : WebState} {es : List WebEvent} {request : WebRequest} {q : ChatRequest}
        (h : Known platform es s) (hq : s.passedOn platform request = some q)
        (htalker : s.talker request = some (browser, some userId)) : q.userId = userId := by
      obtain ⟨b, account, hb, huser, -⟩ := (h.effect request).passedOn_eq_some hq
      obtain ⟨-, rfl⟩ := Prod.mk.inj (Option.some.inj (hb.symm.trans htalker))
      exact huser
    refine ⟨(hid he hq htalker).trans (hid hf hq' htalker').symm, (hsame htalker htalker').2 ?_⟩
    exact ((hheld htalker).held browser).2 ⟨rfl, (he.sessions browser).2 hopen, hquiet⟩

end Users

/-! ### A phone that is handed on -/

theorem writesGuids_plainPlatform : plainPlatform.WritesGuids := by
  intro n hmem
  have htext : (plainPlatform.newGuid n).toList
      = "3f2504e0-4f89-41d3-9a0c-0305e82c".toList ++ Nat.toDigits 10 (1000 + n) := by
    rw [← String.toList_ofList (l := Nat.toDigits 10 (1000 + n)), ← String.toList_append]
    rfl
  rw [htext, List.mem_append] at hmem
  rcases hmem with hmem | hmem
  · exact absurd hmem (by decide)
  · exact absurd (Nat.isDigit_of_mem_toDigits (by decide) (by decide) hmem) (by decide)

/-- A question in the browser of a phone. -/
def question (bearer : Option Token) (prompt : String) : WebRequest :=
  .streamChat "phone" bearer prompt ⟨["The ", "moon."], none⟩

/-- A guest has asked something, alice has registered, and she has logged in with a capital
letter. -/
def guestAsked : WebState := (WebState.fresh.serve plainPlatform (question none "What?")).2
def aliceJoined : WebState :=
  (guestAsked.serve plainPlatform
    (.register true "alice" "correct horse" "N9qo8uLOickgx2ZMRZoMye")).2
def aliceIn : WebState :=
  (aliceJoined.serve plainPlatform (.login true "Alice" "correct horse")).2

/-- The token alice gets. -/
def phoneToken : Token := ⟨plainPlatform.newGuid 2, "alice"⟩

/-- Up to there. -/
def phoneEvents : List WebEvent :=
  [⟨.fresh, question none "What?", (WebState.fresh.serve plainPlatform (question none "What?")).1⟩,
    ⟨guestAsked, .register true "alice" "correct horse" "N9qo8uLOickgx2ZMRZoMye",
      .registered "User registered successfully." phoneToken.nameIdentifier⟩,
    ⟨aliceJoined, .login true "Alice" "correct horse",
      .loggedIn "Login successful." phoneToken phoneToken.nameIdentifier "alice"⟩]

/-- An event at a state. -/
def asks (s : WebState) (request : WebRequest) : WebEvent :=
  ⟨s, request, (s.serve plainPlatform request).1⟩

theorem trace_phoneEvents : Trace (WebStep plainPlatform) .fresh phoneEvents aliceIn := by
  refine .cons rfl (.cons rfl (.cons ?_ (.nil _)))
  rfl

/-- Alice is passed on under the id she has registered with. -/
theorem alice_passed_on : ∃ q,
    aliceIn.passedOn plainPlatform (question (some phoneToken) "Why?") = some q ∧
      ∃ password, Account phoneEvents q.userId "alice" password := by
  have ht : Trace (WebStep plainPlatform) .fresh
      (phoneEvents ++ asks aliceIn (question (some phoneToken) "Why?") :: [])
      (aliceIn.serve plainPlatform (question (some phoneToken) "Why?")).2 :=
    trace_phoneEvents.append (.cons rfl (.nil _))
  refine ⟨_, rfl, ?_⟩
  rcases passedOn_user writesGuids_plainPlatform ht rfl with
    ⟨browser, token, prompt, upstream, password, hinput, -, haccount, -⟩ | ⟨⟨guid, hguest⟩, -⟩
  · cases hinput
    exact ⟨password, haccount⟩
  · exact absurd hguest.symm (guest_ne writesGuids_plainPlatform guid 2)

/-- She goes on with her conversation on a phone that a guest has used. -/
theorem alice_goes_on :
    ∃ q q', aliceIn.passedOn plainPlatform (question (some phoneToken) "Why?") = some q ∧
      (aliceIn.serve plainPlatform (question (some phoneToken) "Why?")).2.passedOn plainPlatform
        (question (some phoneToken) "How often?") = some q' ∧
      (conversationOf q).threadId = (conversationOf q').threadId := by
  let asked := (aliceIn.serve plainPlatform (question (some phoneToken) "Why?")).2
  have ht : Trace (WebStep plainPlatform) .fresh
      (phoneEvents ++ asks aliceIn (question (some phoneToken) "Why?") ::
        ([] ++ asks asked (question (some phoneToken) "How often?") :: []))
      (asked.serve plainPlatform (question (some phoneToken) "How often?")).2 :=
    trace_phoneEvents.append (.cons rfl (.cons rfl (.nil _)))
  refine ⟨_, _, rfl, rfl, (sameThread_iff writesGuids_plainPlatform ht rfl rfl).2 ?_⟩
  refine ⟨"phone", phoneToken.nameIdentifier, rfl, rfl, ?_, List.forall_mem_nil _⟩
  exact ⟨[], _, _, rfl, rfl, by simp⟩

end Web
end CognitiveEngine
