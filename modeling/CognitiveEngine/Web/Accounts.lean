/-
# Accounts of the web application

The tables of `AppDbContext` (`Infrastructure/Data/AppDbContext.cs`) and `AuthService`
(`Application/Services/AuthService.cs`) over them.

`RegisterAsync` adds a row whatever names are there, and nothing in the model of the
database makes a name unique.  `AuthenticateAsync` asks for the single row of a name,
which raises when there are two: `canLogIn_iff` says that a registered user can log in
for as long as nobody registers the name again.

Two names are the same where the database's comparison says so, which is given and may take
two spellings for one name.  GUIDs and BCrypt are given, and `SaveChangesAsync` fails only
where a constraint is violated.
-/

import Mathlib.Order.Nat
import CognitiveEngine.Machine.JoinedKey
import CognitiveEngine.Machine.Trace

namespace CognitiveEngine
namespace Web

open CognitiveEngine.Machine

/-! ### The database -/

/-- A row of `Users`. -/
structure User where
  id : String
  username : String
  passwordHash : String
deriving DecidableEq

/-- A row of `ChatSessions`; the times are in ticks. -/
structure ChatSession where
  id : String
  userId : String
  title : String
  createdAt : ℕ
  lastUpdated : ℕ
deriving DecidableEq

/-- A row of `ChatMessages`. -/
structure ChatMessage where
  id : String
  sessionId : String
  role : String
  content : String
deriving DecidableEq

/-- `AppDbContext`. -/
structure AppDbContext where
  users : List User
  chatSessions : List ChatSession
  chatMessages : List ChatMessage

/-- A database without rows. -/
def AppDbContext.empty : AppDbContext := ⟨[], [], []⟩

/-- `Users.Add` and `SaveChangesAsync`; `none` when the primary key is taken. -/
def AppDbContext.addUser (context : AppDbContext) (user : User) : Option AppDbContext :=
  if ∃ u ∈ context.users, u.id = user.id then none
  else some { context with users := context.users ++ [user] }

/-! ### The service -/

/-- What the services use of .NET and of BCrypt.Net. -/
structure Platform where
  /-- The value of `Guid.NewGuid().ToString()` at each draw. -/
  newGuid : ℕ → String
  newGuid_injective : Function.Injective newGuid
  /-- `BCrypt.HashPassword`, with the salt it draws. -/
  hashPassword : String → String → String
  /-- `BCrypt.Verify`. -/
  verify : String → String → Bool
  verify_hashPassword : ∀ salt password password',
    verify password' (hashPassword salt password) = true ↔ password' = password
  /-- `u.Username == username` in the database, by its collation. -/
  sameName : String → String → Bool
  sameName_refl : ∀ name, sameName name name = true

/-- The database, and how many GUIDs have been drawn. -/
structure Backend where
  context : AppDbContext
  drawn : ℕ

/-- Where every sequence of calls starts. -/
def Backend.fresh : Backend := ⟨.empty, 0⟩

/-- What a call of the service comes to. -/
inductive AuthReply where
  | registered (user : User)
  | authenticated (user : Option User)
  | raised

variable (platform : Platform)

/-- The row `RegisterAsync` makes. -/
def Backend.newUser (backend : Backend) (username password salt : String) : User :=
  ⟨platform.newGuid backend.drawn, username, platform.hashPassword salt password⟩

/-- `RegisterAsync`. -/
def registerAsync (backend : Backend) (username password salt : String) : AuthReply × Backend :=
  let user := backend.newUser platform username password salt
  match backend.context.addUser user with
  | none => (.raised, { backend with drawn := backend.drawn + 1 })
  | some context => (.registered user, ⟨context, backend.drawn + 1⟩)

/-- The rows of `Users` where `u.Username == username`. -/
def AppDbContext.named (context : AppDbContext) (username : String) : List User :=
  context.users.filter fun u => platform.sameName u.username username

/-- `Users.SingleOrDefaultAsync(u => u.Username == username)`; `none` when it raises. -/
def AppDbContext.singleOrDefault (context : AppDbContext) (username : String) :
    Option (Option User) :=
  match context.named platform username with
  | [] => some none
  | [user] => some (some user)
  | _ => none

/-- `AuthenticateAsync`. -/
def authenticateAsync (context : AppDbContext) (username password : String) : AuthReply :=
  match context.singleOrDefault platform username with
  | none => .raised
  | some none => .authenticated none
  | some (some user) =>
      .authenticated (if platform.verify password user.passwordHash then some user else none)

/-- A call of the service. -/
inductive AuthCall where
  | register (username password salt : String)
  | authenticate (username password : String)

/-- One call. -/
def serveAuth (backend : Backend) : AuthCall → AuthReply × Backend
  | .register username password salt => registerAsync platform backend username password salt
  | .authenticate username password =>
      (authenticateAsync platform backend.context username password, backend)

/-- The step relation of the service. -/
def AuthStep (backend : Backend) (call : AuthCall) (reply : AuthReply) (backend' : Backend) : Prop :=
  serveAuth platform backend call = (reply, backend')

/-- A call and its reply. -/
abbrev AuthEvent : Type := Event Backend AuthCall AuthReply

/-! ### Logging in -/

/-- `RegisterAsync` returned a user for a name and a password. -/
def Registers (username password : String) (user : User) (e : AuthEvent) : Prop :=
  (∃ salt, e.input = .register username password salt) ∧ e.output = .registered user

/-- **A registered user can log in:** a call of `AuthenticateAsync` with a name and
password that were registered returns the user who was returned then, and with a
password that was never registered for the name it returns null. -/
def CanLogIn (es : List AuthEvent) : Prop :=
  ∀ before e after username password, es = before ++ e :: after →
    e.input = .authenticate username password →
    (∀ user, (∃ r ∈ before, Registers username password user r) →
      e.output = .authenticated (some user)) ∧
    ((∀ r ∈ before, ∀ user, ¬ Registers username password user r) →
      e.output = .authenticated none)

/-- A call that registers a name, for the database. -/
def AuthCall.registersName (username : String) : AuthCall → Bool
  | .register name _ _ => platform.sameName name username
  | .authenticate _ _ => false

/-- The name was registered at most once, and not in another spelling with the password. -/
structure RegisteredOnce (before : List AuthCall) (username password : String) : Prop where
  once : before.countP (AuthCall.registersName platform username) ≤ 1
  spelled : ∀ name salt, .register name password salt ∈ before →
    platform.sameName name username → name = username

/-- So it was whenever somebody logs in. -/
def NamesTold (calls : List AuthCall) : Prop :=
  ∀ before username password after, calls = before ++ .authenticate username password :: after →
    RegisteredOnce platform before username password

/-! ### The rows -/

/-- Every id was drawn, so that the next one is not taken. -/
def Backend.Drawn (backend : Backend) : Prop :=
  ∀ user ∈ backend.context.users, ∃ n < backend.drawn, user.id = platform.newGuid n

/-- The row of an event that registered somebody. -/
def newRow (e : AuthEvent) : Option User :=
  match e.output with
  | .registered user => some user
  | _ => none

variable {platform}

theorem authenticateAsync_of_nil {context : AppDbContext} {username : String}
    (h : context.named platform username = []) (password : String) :
    authenticateAsync platform context username password = .authenticated none := by
  rw [authenticateAsync, AppDbContext.singleOrDefault, h]

theorem authenticateAsync_of_singleton {context : AppDbContext} {username : String} {user : User}
    (h : context.named platform username = [user]) (password : String) :
    authenticateAsync platform context username password
      = .authenticated (if platform.verify password user.passwordHash then some user else none) := by
  rw [authenticateAsync, AppDbContext.singleOrDefault, h]

/-- Two rows of a name make every login with it raise. -/
theorem authenticateAsync_of_one_lt {context : AppDbContext} {username : String}
    (h : 1 < (context.named platform username).length) (password : String) :
    authenticateAsync platform context username password = .raised := by
  obtain ⟨user, rest, hrows⟩ := List.exists_cons_of_length_pos (Nat.zero_lt_of_lt h)
  obtain ⟨user', rest, rfl⟩ : ∃ user' rest', rest = user' :: rest' := by
    refine List.exists_cons_of_length_pos ?_
    rwa [hrows, List.length_cons, Nat.lt_add_left_iff_pos] at h
  rw [authenticateAsync, AppDbContext.singleOrDefault, hrows]

/-- The ids of a registration are new. -/
theorem addUser_newUser {backend : Backend} (h : backend.Drawn platform)
    (username password salt : String) :
    backend.context.addUser (backend.newUser platform username password salt)
      = some { backend.context with
          users := backend.context.users ++ [backend.newUser platform username password salt] } := by
  refine if_neg ?_
  rintro ⟨user, huser, hid⟩
  obtain ⟨n, hn, hguid⟩ := h user huser
  have heq : n = backend.drawn := platform.newGuid_injective (hguid.symm.trans hid)
  omega

/-- **What one call does:** it adds the row it returns, and an authentication changes
nothing. -/
theorem authStep_cases {backend backend' : Backend} {call : AuthCall} {reply : AuthReply}
    (h : backend.Drawn platform) (hstep : AuthStep platform backend call reply backend') :
    (∃ username password salt, call = .register username password salt ∧
      reply = .registered (backend.newUser platform username password salt) ∧
      backend'.context.users
        = backend.context.users ++ [backend.newUser platform username password salt] ∧
      backend'.drawn = backend.drawn + 1) ∨
    (∃ username password, call = .authenticate username password ∧
      reply = authenticateAsync platform backend.context username password ∧
      backend' = backend) := by
  cases call with
  | register username password salt =>
      refine .inl ⟨username, password, salt, rfl, ?_⟩
      rw [AuthStep, serveAuth, registerAsync, addUser_newUser h, Prod.mk.injEq] at hstep
      obtain ⟨rfl, rfl⟩ := hstep
      exact ⟨rfl, rfl, rfl⟩
  | authenticate username password =>
      obtain ⟨rfl, rfl⟩ := Prod.mk.inj hstep
      exact .inr ⟨username, password, rfl, rfl, rfl⟩

/-- A call keeps the ids drawn. -/
theorem Backend.Drawn.step {backend backend' : Backend} {call : AuthCall} {reply : AuthReply}
    (h : backend.Drawn platform) (hstep : AuthStep platform backend call reply backend') :
    backend'.Drawn platform := by
  rcases authStep_cases h hstep with ⟨username, password, salt, -, -, husers, hdrawn⟩ |
    ⟨username, password, -, -, rfl⟩
  · intro user huser
    rw [husers, List.mem_append, List.mem_singleton] at huser
    rw [hdrawn]
    rcases huser with huser | rfl
    · obtain ⟨n, hn, hid⟩ := h user huser
      exact ⟨n, Nat.lt_succ_of_lt hn, hid⟩
    · exact ⟨backend.drawn, Nat.lt_succ_self _, rfl⟩
  · exact h

/-- An authentication returns no new row. -/
theorem newRow_of_authenticate {e : AuthEvent} {context : AppDbContext}
    {username password : String}
    (h : e.output = authenticateAsync platform context username password) : newRow e = none := by
  rw [newRow, h]
  unfold authenticateAsync
  cases context.singleOrDefault platform username with
  | none => rfl
  | some found => cases found <;> rfl

/-- **The rows after some calls:** those that the registrations returned. -/
theorem users_of_trace {backend backend' : Backend} {es : List AuthEvent}
    (h : backend.Drawn platform) (ht : Trace (AuthStep platform) backend es backend') :
    backend'.context.users = backend.context.users ++ es.filterMap newRow := by
  induction ht with
  | nil backend => simp
  | @cons backend backend₁ backend' call reply es hstep ht ih =>
      rw [ih (h.step hstep)]
      rcases authStep_cases h hstep with ⟨username, password, salt, -, rfl, husers, -⟩ |
        ⟨username, password, -, rfl, rfl⟩
      · rw [husers, List.append_assoc]
        rfl
      · rw [List.filterMap_cons_none (newRow_of_authenticate rfl)]

theorem drawn_fresh : Backend.fresh.Drawn platform :=
  fun _ h => absurd h List.not_mem_nil

/-- The row of a registration has the name and a hash of the password it was made
with. -/
theorem newRow_eq_some {backend backend' : Backend} {es : List AuthEvent}
    (h : backend.Drawn platform) (ht : Trace (AuthStep platform) backend es backend')
    {e : AuthEvent} (he : e ∈ es) {user : User} (hrow : newRow e = some user) :
    ∃ password, Registers user.username password user e ∧
      ∀ password', platform.verify password' user.passwordHash ↔ password' = password := by
  obtain ⟨before, after, rfl⟩ := List.append_of_mem he
  obtain ⟨hbefore, backend₁, hstep, -⟩ := ht.split
  have hdrawn : e.before.Drawn platform :=
    (hbefore.invariant (P := Backend.Drawn platform) (fun hs hstep => hs.step hstep) h).1
  rcases authStep_cases hdrawn hstep with ⟨username, password, salt, hcall, hreply, -, -⟩ |
    ⟨username, password, -, hreply, -⟩
  · obtain rfl : e.before.newUser platform username password salt = user := by
      rw [newRow, hreply] at hrow
      exact Option.some.inj hrow
    exact ⟨password, ⟨⟨salt, hcall⟩, hreply⟩, platform.verify_hashPassword salt password⟩
  · exact absurd ((newRow_of_authenticate hreply).symm.trans hrow) (by simp)

/-- A name has a row for every time it was registered. -/
theorem length_named {backend backend' : Backend} {es : List AuthEvent}
    (h : backend.Drawn platform) (ht : Trace (AuthStep platform) backend es backend')
    (username : String) :
    (backend'.context.named platform username).length
      = (backend.context.named platform username).length +
        (es.map Event.input).countP (AuthCall.registersName platform username) := by
  induction ht with
  | nil backend => rfl
  | @cons backend backend₁ backend' call reply es hstep ht ih =>
      rw [ih (h.step hstep), List.map_cons, List.countP_cons]
      rcases authStep_cases h hstep with ⟨name, password, salt, rfl, -, husers, -⟩ |
        ⟨name, password, rfl, -, rfl⟩
      · rw [AppDbContext.named, husers, List.filter_append, List.length_append,
          List.filter_singleton]
        by_cases hname : platform.sameName name username
        · simp [AppDbContext.named, Backend.newUser, AuthCall.registersName, hname]
          omega
        · simp [AppDbContext.named, Backend.newUser, AuthCall.registersName, hname]
      · simp [AuthCall.registersName]

/-- The row of a registration is there when the name is looked up. -/
theorem Registers.mem_named {backend : Backend} {es : List AuthEvent}
    (ht : Trace (AuthStep platform) .fresh es backend) {e : AuthEvent} (he : e ∈ es)
    {username password : String} {user : User} (h : Registers username password user e) :
    user ∈ backend.context.named platform username ∧ user.username = username ∧
      ∀ password', platform.verify password' user.passwordHash ↔ password' = password := by
  obtain ⟨⟨salt, hinput⟩, houtput⟩ := h
  have hrow : newRow e = some user := by rw [newRow, houtput]
  obtain ⟨password₁, ⟨⟨salt', hinput'⟩, -⟩, hverify⟩ := newRow_eq_some drawn_fresh ht he hrow
  rw [hinput, AuthCall.register.injEq] at hinput'
  obtain ⟨hname, rfl, -⟩ := hinput'
  refine ⟨?_, hname.symm, hverify⟩
  rw [AppDbContext.named, List.mem_filter, users_of_trace drawn_fresh ht, ← hname]
  exact ⟨List.mem_append_right _ (List.mem_filterMap.2 ⟨e, he, hrow⟩), platform.sameName_refl _⟩

/-- A call that registers returns a row. -/
theorem exists_registers {backend : Backend} {es : List AuthEvent}
    (ht : Trace (AuthStep platform) .fresh es backend) {name password salt : String}
    (h : .register name password salt ∈ es.map Event.input) :
    ∃ e ∈ es, ∃ user, Registers name password user e := by
  obtain ⟨e, he, hinput⟩ := List.mem_map.1 h
  obtain ⟨before, after, rfl⟩ := List.append_of_mem he
  obtain ⟨hbefore, backend₁, hstep, -⟩ := ht.split
  have hdrawn : e.before.Drawn platform :=
    (hbefore.invariant (P := Backend.Drawn platform) (fun hs hstep => hs.step hstep)
      drawn_fresh).1
  rcases authStep_cases hdrawn hstep with ⟨_, _, _, -, houtput, -, -⟩ | ⟨_, _, hcall, -, -⟩
  · exact ⟨e, he, _, ⟨salt, hinput⟩, houtput⟩
  · rw [hinput] at hcall
    exact absurd hcall nofun

/-- A row that is looked up is that of a registration. -/
theorem registers_of_mem_named {backend : Backend} {es : List AuthEvent}
    (ht : Trace (AuthStep platform) .fresh es backend) {username : String} {user : User}
    (h : user ∈ backend.context.named platform username) :
    platform.sameName user.username username ∧
      ∃ e ∈ es, ∃ password, Registers user.username password user e := by
  rw [AppDbContext.named, List.mem_filter, users_of_trace drawn_fresh ht] at h
  obtain ⟨hmem, hname⟩ := h
  obtain ⟨e, he, hrow⟩ := List.mem_filterMap.1 (show user ∈ es.filterMap newRow from hmem)
  obtain ⟨password, hregisters, -⟩ := newRow_eq_some drawn_fresh ht he hrow
  exact ⟨hname, e, he, password, hregisters⟩

/-- What a login finds depends on the calls before it. -/
theorem login_of_trace {backend : Backend} {before after : List AuthEvent} {e : AuthEvent}
    (ht : Trace (AuthStep platform) .fresh (before ++ e :: after) backend)
    {username password : String} (hinput : e.input = .authenticate username password) :
    Trace (AuthStep platform) .fresh before e.before ∧
      e.output = authenticateAsync platform e.before.context username password := by
  obtain ⟨hbefore, backend₁, hstep, -⟩ := ht.split
  rw [hinput] at hstep
  exact ⟨hbefore, (Prod.mk.inj hstep).1.symm⟩

/-- **When a login is as it should be:** the name has been registered at most once, and not
in another spelling with the same password. -/
theorem authenticateAsync_iff {backend : Backend} {before : List AuthEvent}
    (hbefore : Trace (AuthStep platform) .fresh before backend) (username password : String) :
    ((∀ user, (∃ r ∈ before, Registers username password user r) →
        authenticateAsync platform backend.context username password
          = .authenticated (some user)) ∧
      ((∀ r ∈ before, ∀ user, ¬ Registers username password user r) →
        authenticateAsync platform backend.context username password = .authenticated none)) ↔
      RegisteredOnce platform (before.map Event.input) username password := by
  have hlength : (backend.context.named platform username).length
      = (before.map Event.input).countP (AuthCall.registersName platform username) := by
    rw [length_named drawn_fresh hbefore]
    exact Nat.zero_add _
  constructor
  · rintro ⟨hknown, hunknown⟩
    have honce : (backend.context.named platform username).length ≤ 1 := by
      by_contra htwo
      -- The login raises, whatever the password.
      have hraised : authenticateAsync platform backend.context username password = .raised :=
        authenticateAsync_of_one_lt (Nat.not_le.1 htwo) password
      by_cases hpassword : ∃ user, ∃ r ∈ before, Registers username password user r
      · obtain ⟨user, hr⟩ := hpassword
        exact absurd (hraised.symm.trans (hknown user hr)) (by simp)
      · refine absurd (hraised.symm.trans (hunknown fun r hr user h => ?_)) (by simp)
        exact hpassword ⟨user, r, hr, h⟩
    refine ⟨hlength ▸ honce, fun name salt hcall hsame => ?_⟩
    by_contra hother
    -- The one row of the name has another spelling, and the login returns it.
    obtain ⟨e, he, user, hregisters⟩ := exists_registers hbefore hcall
    obtain ⟨hmem, hname, hverify⟩ := hregisters.mem_named hbefore he
    have hfound : backend.context.named platform username = [user] := by
      have huser : user ∈ backend.context.named platform username :=
        List.mem_filter.2 ⟨(List.mem_filter.1 hmem).1, by rwa [hname]⟩
      obtain ⟨found, hfound⟩ := List.length_eq_one_iff.1
        (le_antisymm honce (List.length_pos_of_mem huser))
      rw [hfound, List.mem_singleton] at huser
      rw [hfound, huser]
    refine absurd ((authenticateAsync_of_singleton hfound password).symm.trans
      (hunknown fun r hr user' h => ?_)) (by simp [(hverify password).2 rfl])
    obtain ⟨hmem', hname', -⟩ := h.mem_named hbefore hr
    rw [hfound, List.mem_singleton] at hmem'
    exact hother (by rw [← hname, ← hname', hmem'])
  · rintro ⟨hcount, hspelled⟩
    rw [← hlength] at hcount
    rcases Nat.le_one_iff_eq_zero_or_eq_one.1 hcount with hnone | hone
    · have hnil := List.length_eq_zero_iff.1 hnone
      refine ⟨?_, fun _ => authenticateAsync_of_nil hnil password⟩
      rintro user ⟨r, hr, h⟩
      exact absurd (hnil ▸ (h.mem_named hbefore hr).1) List.not_mem_nil
    · obtain ⟨found, hfound⟩ := List.length_eq_one_iff.1 hone
      rw [authenticateAsync_of_singleton hfound]
      constructor
      · rintro user ⟨r, hr, h⟩
        obtain ⟨hmem, -, hverify⟩ := h.mem_named hbefore hr
        rw [hfound, List.mem_singleton] at hmem
        obtain rfl := hmem
        rw [if_pos ((hverify password).2 rfl)]
      · intro hnever
        obtain ⟨hsame, r, hr, password', h⟩ :=
          registers_of_mem_named hbefore (hfound ▸ List.mem_singleton_self found)
        have hverify := (h.mem_named hbefore hr).2.2 password
        have hother : password ≠ password' := by
          rintro rfl
          obtain ⟨salt, hinput⟩ := h.1
          have hname := hspelled _ salt (hinput ▸ List.mem_map_of_mem hr) hsame
          exact hnever r hr found (hname ▸ h)
        rw [if_neg (fun hyes => hother (hverify.1 hyes))]

/-- **When a registered user can log in.**  In every sequence of calls on an empty
database: exactly when each name is registered at most once before somebody logs in
with it, and not in another spelling with the password of the login. -/
theorem canLogIn_iff {backend : Backend} {es : List AuthEvent}
    (ht : Trace (AuthStep platform) .fresh es backend) :
    CanLogIn es ↔ NamesTold platform (es.map Event.input) := by
  constructor
  · intro hcan calls username password calls' hcalls
    obtain ⟨before, e, after, rfl, rfl, hinput, rfl⟩ := exists_event_of_inputs hcalls
    obtain ⟨hbefore, houtput⟩ := login_of_trace ht hinput
    rw [← authenticateAsync_iff hbefore username password, ← houtput]
    exact hcan before e after username password rfl hinput
  · intro honce before e after username password hes hinput
    obtain ⟨hbefore, houtput⟩ := login_of_trace (hes ▸ ht) hinput
    rw [houtput, authenticateAsync_iff hbefore]
    exact honce (before.map Event.input) username password (after.map Event.input)
      (by rw [hes, List.map_append, List.map_cons, hinput])

/-! ### A name registered twice -/

/-- A platform whose GUIDs end in a counter and whose hashes keep the password; the database
does not tell upper from lower case. -/
def plainPlatform : Platform where
  newGuid n := "3f2504e0-4f89-41d3-9a0c-0305e82c" ++ Nat.repr (1000 + n)
  newGuid_injective m n h := by
    rw [append_repr_inj] at h
    omega
  hashPassword _ password := "$2a$11$" ++ password
  verify password hash := hash = "$2a$11$" ++ password
  verify_hashPassword _ password password' := by
    rw [decide_eq_true_iff, String.append_right_inj, eq_comm]
  sameName name name' := name.toList.map Char.toLower = name'.toList.map Char.toLower
  sameName_refl _ := decide_eq_true rfl

/-- The backend after one registration. -/
def aliceRegistered : AuthReply × Backend :=
  registerAsync plainPlatform .fresh "alice" "correct horse" "N9qo8uLOickgx2ZMRZoMye"

/-- Registered once, alice can log in. -/
theorem alice_can_log_in :
    ∃ es : List AuthEvent, es.map Event.input
        = [.register "alice" "correct horse" "N9qo8uLOickgx2ZMRZoMye",
          .authenticate "alice" "correct horse", .authenticate "alice" "battery staple"] ∧
      CanLogIn es := by
  have ht : Trace (AuthStep plainPlatform) .fresh
      [⟨.fresh, .register "alice" "correct horse" "N9qo8uLOickgx2ZMRZoMye", aliceRegistered.1⟩,
        ⟨aliceRegistered.2, .authenticate "alice" "correct horse", _⟩,
        ⟨aliceRegistered.2, .authenticate "alice" "battery staple", _⟩] aliceRegistered.2 :=
    .cons rfl (.cons rfl (.cons rfl (.nil _)))
  refine ⟨_, rfl, (canLogIn_iff ht).2 fun before username password after hcalls => ?_⟩
  have hsub : before.Sublist (before ++ .authenticate username password :: after) :=
    List.sublist_append_left _ _
  constructor
  · have hone : [AuthCall.register "alice" "correct horse" "N9qo8uLOickgx2ZMRZoMye",
        .authenticate "alice" "correct horse", .authenticate "alice" "battery staple"].countP
          (AuthCall.registersName plainPlatform username) ≤ 1 := by
      by_cases h : plainPlatform.sameName "alice" username <;> simp [AuthCall.registersName, h]
    exact le_trans (hcalls ▸ hsub).countP_le hone
  · intro name salt hcall _
    have hlogin : AuthCall.authenticate username password
        ∈ before ++ .authenticate username password :: after := by simp
    have hregister := hsub.mem hcall
    rw [← hcalls] at hlogin hregister
    simp only [List.map_cons, List.map_nil, List.mem_cons, List.not_mem_nil, or_false,
      AuthCall.authenticate.injEq, AuthCall.register.injEq, reduceCtorEq, false_or] at hlogin hregister
    rcases hlogin with ⟨rfl, -⟩ | ⟨rfl, -⟩
    all_goals exact hregister.1

/-- When somebody else registers the same name, alice's login raises. -/
theorem second_registration_locks_out :
    ¬ ∀ (es : List AuthEvent) (backend : Backend),
      Trace (AuthStep plainPlatform) .fresh es backend → CanLogIn es := by
  intro h
  let twice := registerAsync plainPlatform aliceRegistered.2 "alice" "battery staple"
    "K3VUv4zOickgx2ZMRZoMye"
  have ht : Trace (AuthStep plainPlatform) .fresh
      ([⟨.fresh, .register "alice" "correct horse" "N9qo8uLOickgx2ZMRZoMye", aliceRegistered.1⟩,
        ⟨aliceRegistered.2, .register "alice" "battery staple" "K3VUv4zOickgx2ZMRZoMye", twice.1⟩]
        ++ [⟨twice.2, .authenticate "alice" "correct horse", .raised⟩]) twice.2 :=
    .cons rfl (.cons rfl (.cons rfl (.nil _)))
  have hreturned := (h _ _ ht _ _ [] "alice" "correct horse" rfl rfl).1
    (Backend.fresh.newUser plainPlatform "alice" "correct horse" "N9qo8uLOickgx2ZMRZoMye")
    ⟨_, List.mem_cons_self, ⟨_, rfl⟩, rfl⟩
  exact absurd hreturned (by simp)

end Web
end CognitiveEngine
