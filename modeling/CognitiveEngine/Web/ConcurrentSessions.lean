/-
# Calls of the web services at the same time

`CreateSessionAsync` (`Application/Services/ChatSessionService.cs`) asks for the sessions of
its user, and adds and removes rows later, in a `SaveChangesAsync` of its own.  In between
other calls come and go, so what it removes is the oldest of what was there before.  The
save is one transaction, and it raises when a row that it removes is gone already
(`DbUpdateConcurrencyException`).

`sessions_bounded` says what is left of the limit then: with `k` calls of a user at once,
the user has at most `k - 1` sessions more.  `transcripts_grow` is what no order of the
calls can break: the rows refer to rows that are there, and the messages of a session are
whole turns, to which others are only ever appended.
-/

import Mathlib.Data.List.Infix
import Mathlib.Logic.Relation
import CognitiveEngine.Web.SessionCap

namespace CognitiveEngine
namespace Web

open CognitiveEngine.Machine

variable (platform : Platform) (maxSessionsPerUser : ℤ)

/-- A call of `CreateSessionAsync` that has asked for its rows. -/
structure OpenCall where
  call : CreateCall
  userSessions : List ChatSession

/-- The database, and the calls that are under way. -/
structure Services where
  backend : Backend
  openCalls : List OpenCall

/-- `SaveChangesAsync` at the end of `CreateSessionAsync`; `none` when it raises. -/
def OpenCall.save (o : OpenCall) (backend : Backend) : Option (ChatSession × Backend) :=
  if ∀ s ∈ sessionsToDelete maxSessionsPerUser o.userSessions, s ∈ backend.context.chatSessions then
    createSessionFrom platform maxSessionsPerUser o.userSessions backend o.call
  else none

/-- One thing that happens: a call of `CreateSessionAsync` asks for its rows, saves or is
broken off, or another service is called. -/
inductive ServiceStep : Services → Services → Prop
  | query {backend : Backend} {openCalls : List OpenCall} {call : CreateCall}
      {rows : List ChatSession} (hrows : OrderedRows backend.context call.userId rows) :
      ServiceStep ⟨backend, openCalls⟩ ⟨backend, ⟨call, rows⟩ :: openCalls⟩
  | save {backend : Backend} (before after : List OpenCall) (o : OpenCall) :
      ServiceStep ⟨backend, before ++ o :: after⟩
        ⟨((o.save platform maxSessionsPerUser backend).map Prod.snd).getD
          { backend with drawn := backend.drawn + 1 }, before ++ after⟩
  | abandon {backend : Backend} (before after : List OpenCall) (o : OpenCall) :
      ServiceStep ⟨backend, before ++ o :: after⟩ ⟨backend, before ++ after⟩
  | register {backend : Backend} {openCalls : List OpenCall} (username password salt : String) :
      ServiceStep ⟨backend, openCalls⟩
        ⟨(registerAsync platform backend username password salt).2, openCalls⟩
  | saveMessages {backend : Backend} {openCalls : List OpenCall}
      (sessionId prompt aiResponse : String) :
      ServiceStep ⟨backend, openCalls⟩
        ⟨(saveMessagesAsync platform backend sessionId prompt aiResponse).getD
          { backend with drawn := backend.drawn + 2 }, openCalls⟩

variable {platform} {maxSessionsPerUser}

/-- What a save that goes through writes. -/
theorem OpenCall.save_spec {o : OpenCall} {backend after : Backend} {session : ChatSession}
    (h : o.save platform maxSessionsPerUser backend = some (session, after)) :
    (∀ s ∈ sessionsToDelete maxSessionsPerUser o.userSessions,
        s ∈ backend.context.chatSessions) ∧
      createSessionFrom platform maxSessionsPerUser o.userSessions backend o.call
        = some (session, after) := by
  unfold OpenCall.save at h
  split_ifs at h with hthere
  exact ⟨hthere, h⟩

/-! ### The limit -/

/-- The calls of a user that are under way. -/
def Services.callsOf (s : Services) (userId : String) : List OpenCall :=
  s.openCalls.filter (·.call.userId = userId)

variable (maxSessionsPerUser) in
/-- The calls of a user that will add a session and remove none. -/
def Services.adding (s : Services) (userId : String) : ℕ :=
  (s.callsOf userId).countP fun o => sessionsToDelete maxSessionsPerUser o.userSessions = []

variable (maxSessionsPerUser) in
theorem adding_le_callsOf (s : Services) (userId : String) :
    s.adding maxSessionsPerUser userId ≤ (s.callsOf userId).length :=
  List.countP_le_length

/-- Nothing is removed exactly when the limit was not reached. -/
theorem sessionsToDelete_eq_nil_iff (hM : 1 ≤ maxSessionsPerUser) {rows : List ChatSession} :
    sessionsToDelete maxSessionsPerUser rows = [] ↔ (rows.length : ℤ) < maxSessionsPerUser := by
  rw [sessionsToDelete_eq, List.take_eq_nil_iff]
  constructor
  · rintro (hnone | rfl)
    · omega
    · rw [List.length_nil, Nat.cast_zero]
      omega
  · intro h
    exact .inl (by omega)

variable (maxSessionsPerUser) in
/-- A call leaves the count of the others as it is. -/
theorem adding_remove (backend backend' : Backend) (before after : List OpenCall) (o : OpenCall)
    (userId : String) :
    (⟨backend, before ++ o :: after⟩ : Services).adding maxSessionsPerUser userId
      = (⟨backend', before ++ after⟩ : Services).adding maxSessionsPerUser userId +
        if o.call.userId = userId ∧ sessionsToDelete maxSessionsPerUser o.userSessions = [] then 1
        else 0 := by
  by_cases huser : o.call.userId = userId <;>
    by_cases hnone : sessionsToDelete maxSessionsPerUser o.userSessions = [] <;>
    simp [Services.adding, Services.callsOf, huser, hnone, List.filter_append, List.countP_append]
  omega

/-- What a save does to the number of sessions of a user. -/
theorem OpenCall.length_sessionsOf_save {o : OpenCall} {backend after : Backend}
    {session : ChatSession} (hown : ∀ s ∈ o.userSessions, s.userId = o.call.userId)
    (h : o.save platform maxSessionsPerUser backend = some (session, after)) (userId : String) :
    (after.context.sessionsOf userId).length ≤ (backend.context.sessionsOf userId).length +
      if o.call.userId = userId ∧ sessionsToDelete maxSessionsPerUser o.userSessions = [] then 1
      else 0 := by
  obtain ⟨hthere, hmade⟩ := o.save_spec h
  rw [sessionsOf_after hmade, List.length_append]
  by_cases huser : o.call.userId = userId
  · rw [if_pos huser, List.length_singleton]
    cases hdelete : sessionsToDelete maxSessionsPerUser o.userSessions with
    | nil => simp [huser]
    | cons removed rest =>
        -- At least one session of the user goes.
        have hremoved : removed ∈ sessionsToDelete maxSessionsPerUser o.userSessions :=
          hdelete ▸ List.mem_cons_self
        have hrow : removed ∈ o.userSessions := by
          rw [sessionsToDelete_eq] at hremoved
          exact List.mem_of_mem_take hremoved
        have hmem : removed ∈ backend.context.sessionsOf userId :=
          List.mem_filter.2 ⟨hthere _ hremoved, by simp [hown removed hrow, huser]⟩
        have hlt : ((backend.context.sessionsOf userId).filter (· ∉ removed :: rest)).length
            < (backend.context.sessionsOf userId).length :=
          List.length_filter_lt_length_iff_exists.2 ⟨removed, hmem, by simp⟩
        omega
  · rw [if_neg huser, List.length_nil, add_zero]
    exact (List.length_filter_le _ _).trans (Nat.le_add_right _ _)

/-- Registrations and messages leave the sessions alone. -/
theorem chatSessions_saveMessages (backend : Backend) (sessionId prompt aiResponse : String) :
    ((saveMessagesAsync platform backend sessionId prompt aiResponse).getD
      { backend with drawn := backend.drawn + 2 }).context.chatSessions
        = backend.context.chatSessions := by
  cases h : saveMessagesAsync platform backend sessionId prompt aiResponse with
  | none => rfl
  | some after => exact chatSessions_saveMessagesAsync h

variable (maxSessionsPerUser) in
/-- What is kept along a run, for a user: the rows of a call are those of its user, and the
sessions with those that will come on top are bounded. -/
structure Services.Bounded (s : Services) (userId : String) (bound : ℕ) : Prop where
  own : ∀ o ∈ s.openCalls, ∀ row ∈ o.userSessions, row.userId = o.call.userId
  total_le : (s.backend.context.sessionsOf userId).length + s.adding maxSessionsPerUser userId
    ≤ bound

/-- **One step keeps the bound**, if the user has no more than `k` calls under way. -/
theorem Services.Bounded.step {s s' : Services} {userId : String} {bound k : ℕ}
    (hM : 1 ≤ maxSessionsPerUser) (hk : maxSessionsPerUser - 1 + k ≤ bound)
    (hb : s.Bounded maxSessionsPerUser userId bound)
    (hs : ServiceStep platform maxSessionsPerUser s s') (hcalls : (s'.callsOf userId).length ≤ k) :
    s'.Bounded maxSessionsPerUser userId bound := by
  obtain ⟨hown, htotal⟩ := hb
  cases hs with
  | @query backend openCalls call rows hrows =>
      have hrow : ∀ row ∈ rows, row.userId = call.userId := fun row hr =>
        of_decide_eq_true (List.mem_filter.1 (hrows.perm.mem_iff.1 hr)).2
      refine ⟨List.forall_mem_cons.2 ⟨hrow, hown⟩, ?_⟩
      have hadd := adding_remove maxSessionsPerUser backend backend []
        openCalls ⟨call, rows⟩ userId
      rw [List.nil_append, List.nil_append] at hadd
      by_cases hadds : call.userId = userId ∧ sessionsToDelete maxSessionsPerUser rows = []
      · -- The rows are all the sessions there are, and fewer than the limit.
        have hlt := (sessionsToDelete_eq_nil_iff hM).1 hadds.2
        have hlength : rows.length = (backend.context.sessionsOf userId).length := by
          rw [hrows.perm.length_eq, hadds.1]
        have hle := adding_le_callsOf maxSessionsPerUser
          ⟨backend, ⟨call, rows⟩ :: openCalls⟩ userId
        dsimp only
        omega
      · rw [hadd, if_neg hadds, add_zero]
        exact htotal
  | @save backend before after o =>
      have hadd := adding_remove maxSessionsPerUser backend
        (((o.save platform maxSessionsPerUser backend).map Prod.snd).getD
          { backend with drawn := backend.drawn + 1 }) before after o userId
      have hownO := hown o (List.mem_append_right _ List.mem_cons_self)
      refine ⟨fun p hp => hown p ?_, ?_⟩
      · rcases List.mem_append.1 hp with hp | hp
        · exact List.mem_append_left _ hp
        · exact List.mem_append_right _ (List.mem_cons_of_mem _ hp)
      · cases hsave : o.save platform maxSessionsPerUser backend with
        | none =>
            rw [hsave] at hadd
            simp only [Option.map_none, Option.getD_none] at hadd ⊢
            dsimp only at htotal
            omega
        | some made =>
            obtain ⟨session, made⟩ := made
            have hle := o.length_sessionsOf_save hownO hsave userId
            rw [hsave] at hadd
            simp only [Option.map_some, Option.getD_some] at hadd ⊢
            dsimp only at htotal
            omega
  | @abandon backend before after o =>
      have hadd := adding_remove maxSessionsPerUser backend backend before
        after o userId
      refine ⟨fun p hp => hown p ?_, ?_⟩
      · rcases List.mem_append.1 hp with hp | hp
        · exact List.mem_append_left _ hp
        · exact List.mem_append_right _ (List.mem_cons_of_mem _ hp)
      · dsimp only at htotal ⊢
        omega
  | @register backend openCalls username password salt =>
      refine ⟨hown, ?_⟩
      rw [AppDbContext.sessionsOf, chatSessions_registerAsync]
      exact htotal
  | @saveMessages backend openCalls sessionId prompt aiResponse =>
      refine ⟨hown, ?_⟩
      rw [AppDbContext.sessionsOf, chatSessions_saveMessages]
      exact htotal

/-! ### Runs -/

variable (platform) (maxSessionsPerUser) in
/-- The runs in which a user never has more than `k` calls under way. -/
def RunWith (userId : String) (k : ℕ) : Services → Services → Prop :=
  Relation.ReflTransGen fun s s' =>
    ServiceStep platform maxSessionsPerUser s s' ∧ (s'.callsOf userId).length ≤ k

/-- What is kept from the start of a run. -/
theorem RunWith.bounded {s s' : Services} {userId : String} {bound k : ℕ}
    (hM : 1 ≤ maxSessionsPerUser) (hk : maxSessionsPerUser - 1 + k ≤ bound)
    (hb : s.Bounded maxSessionsPerUser userId bound)
    (hrun : RunWith platform maxSessionsPerUser userId k s s') :
    s'.Bounded maxSessionsPerUser userId bound := by
  induction hrun with
  | refl => exact hb
  | tail _ hs ih => exact ih.step hM hk hs.1 hs.2

/-- Calls that ask for their rows one after the other. -/
theorem runWith_query {backend : Backend} {userId : String} {o : OpenCall}
    (ho : OrderedRows backend.context o.call.userId o.userSessions) {j k : ℕ} (hj : j ≤ k) :
    RunWith platform maxSessionsPerUser userId k ⟨backend, []⟩ ⟨backend, List.replicate j o⟩ := by
  induction j with
  | zero => exact .refl
  | succ j ih =>
      refine (ih (Nat.le_of_succ_le hj)).tail ⟨.query ho, ?_⟩
      refine (List.length_filter_le _ _).trans ?_
      dsimp only
      rw [List.length_replicate]
      exact hj

/-- Calls that remove nothing save one after the other, and each adds its session. -/
theorem exists_runWith_save {userId : String} (o : OpenCall) {k : ℕ}
    (huserId : o.call.userId = userId)
    (hnone : sessionsToDelete maxSessionsPerUser o.userSessions = []) {j : ℕ} (hj : j ≤ k)
    {backend : Backend} (huser : ∃ user ∈ backend.context.users, user.id = userId) :
    ∃ backend', RunWith platform maxSessionsPerUser userId k ⟨backend, List.replicate j o⟩
        ⟨backend', []⟩ ∧
      (backend'.context.sessionsOf userId).length
        = (backend.context.sessionsOf userId).length + j := by
  induction j generalizing backend with
  | zero => exact ⟨backend, .refl, rfl⟩
  | succ j ih =>
      subst huserId
      obtain ⟨made, hsave⟩ : ∃ made, o.save platform maxSessionsPerUser backend = some made := by
        rw [OpenCall.save, if_pos (by rw [hnone]; exact List.forall_mem_nil _),
          createSessionFrom_eq, if_pos huser]
        exact ⟨_, rfl⟩
      obtain ⟨session, after⟩ := made
      obtain ⟨-, hmade⟩ := o.save_spec hsave
      have hlength : (after.context.sessionsOf o.call.userId).length
          = (backend.context.sessionsOf o.call.userId).length + 1 := by
        rw [sessionsOf_after hmade, if_pos rfl, hnone]
        simp
      have husers : ∃ user ∈ after.context.users, user.id = o.call.userId := by
        rw [(createSessionFrom_spec hmade).2.2.1]
        exact huser
      obtain ⟨backend', hrun, hfinal⟩ := ih (Nat.le_of_succ_le hj) husers
      refine ⟨backend', .head ⟨.save [] (List.replicate j o) o, ?_⟩ ?_, by omega⟩
      · refine (List.length_filter_le _ _).trans ?_
        rw [List.nil_append, List.length_replicate]
        exact Nat.le_of_succ_le hj
      · rw [hsave]
        exact hrun

/-- **The limit under concurrency.**  With no more than `k` calls of a user at once, whatever
else goes on and whichever calls fail, the user never has more sessions than before or
`k - 1` above the limit; and from one below the limit `k` calls at once can lead there. -/
theorem sessions_bounded (hM : 1 ≤ maxSessionsPerUser) (userId : String) (k : ℕ)
    {backend : Backend} :
    (∀ s', RunWith platform maxSessionsPerUser userId k ⟨backend, []⟩ s' →
      ((s'.backend.context.sessionsOf userId).length : ℤ)
        ≤ max ((backend.context.sessionsOf userId).length : ℤ) (maxSessionsPerUser - 1 + k)) ∧
    ((∃ user ∈ backend.context.users, user.id = userId) →
      ((backend.context.sessionsOf userId).length : ℤ) = maxSessionsPerUser - 1 →
      ∃ backend', RunWith platform maxSessionsPerUser userId k ⟨backend, []⟩ ⟨backend', []⟩ ∧
        ((backend'.context.sessionsOf userId).length : ℤ) = maxSessionsPerUser - 1 + k) := by
  refine ⟨fun s' hrun => ?_, fun huser hlength => ?_⟩
  · have hstart : (⟨backend, []⟩ : Services).Bounded maxSessionsPerUser userId
        (max (backend.context.sessionsOf userId).length (maxSessionsPerUser - 1 + k).toNat) :=
      ⟨List.forall_mem_nil _, le_max_left _ _⟩
    have htotal := (hrun.bounded hM (by omega) hstart).total_le
    omega
  · obtain ⟨rows, hrows, -⟩ := createSessionAsync_eq platform maxSessionsPerUser backend
      ⟨userId, "", 0⟩
    have hnone : sessionsToDelete maxSessionsPerUser rows = [] := by
      rw [sessionsToDelete_eq_nil_iff hM, hrows.perm.length_eq, hlength]
      omega
    let o : OpenCall := ⟨⟨userId, "", 0⟩, rows⟩
    obtain ⟨backend', hrun, hfinal⟩ :
        ∃ backend', RunWith platform maxSessionsPerUser userId k
            ⟨backend, List.replicate k o⟩ ⟨backend', []⟩ ∧
          (backend'.context.sessionsOf userId).length
            = (backend.context.sessionsOf userId).length + k :=
      exists_runWith_save o rfl hnone (le_refl k) huser
    have hquery : RunWith platform maxSessionsPerUser userId k ⟨backend, []⟩
        ⟨backend, List.replicate k o⟩ := runWith_query hrows le_rfl
    exact ⟨backend', hquery.trans hrun, by omega⟩

/-- With a limit of one, two calls of Alice at once leave her with two sessions. -/
theorem alice_twice_at_once : ∃ backend',
    RunWith plainPlatform 1 "alice" 2 ⟨⟨⟨[⟨"alice", "alice", ""⟩], [], []⟩, 0⟩, []⟩ ⟨backend', []⟩ ∧
      ((backend'.context.sessionsOf "alice").length : ℤ) = 2 :=
  (sessions_bounded (le_refl 1) "alice" 2).2 ⟨_, List.mem_singleton_self _, rfl⟩ rfl

/-! ### The rows -/

/-- The messages of a session, in the order in which they were saved. -/
def AppDbContext.messagesOf (context : AppDbContext) (sessionId : String) : List ChatMessage :=
  context.chatMessages.filter (·.sessionId = sessionId)

/-- What a session looks like after some turns, each a prompt and an answer. -/
def transcriptOf (turns : List (String × String)) : List (String × String) :=
  turns.flatMap fun turn => [("User", turn.1), ("AI", turn.2)]

variable (platform) in
/-- The two rows of a turn. -/
def Backend.turnRows (backend : Backend) (sessionId prompt aiResponse : String) :
    List ChatMessage :=
  [⟨platform.newGuid backend.drawn, sessionId, "User", prompt⟩,
    ⟨platform.newGuid (backend.drawn + 1), sessionId, "AI", aiResponse⟩]

variable (platform) in
/-- What the database keeps to. -/
structure Backend.Intact (backend : Backend) : Prop where
  users_nodup : (backend.context.users.map User.id).Nodup
  /-- The sessions keep to their keys. -/
  sessions : backend.Sound platform
  messages_nodup : (backend.context.chatMessages.map ChatMessage.id).Nodup
  messages_fresh : ∀ m ∈ backend.context.chatMessages, ∀ n, backend.drawn ≤ n →
    m.id ≠ platform.newGuid n
  /-- A message is one of a session that is there. -/
  filed : ∀ m ∈ backend.context.chatMessages,
    ∃ s ∈ backend.context.chatSessions, s.id = m.sessionId
  /-- A session holds whole turns. -/
  turns : ∀ sessionId, ∃ turns, (backend.context.messagesOf sessionId).map
    (fun m => (m.role, m.content)) = transcriptOf turns

variable (platform) in
/-- What is left of the sessions later: those that are there then were there before or are
new, and the messages of one that was there are the earlier ones, with more behind them. -/
structure Grows (backend backend' : Backend) : Prop where
  drawn_le : backend.drawn ≤ backend'.drawn
  known : ∀ s ∈ backend'.context.chatSessions, s ∈ backend.context.chatSessions ∨
    ∃ n, backend.drawn ≤ n ∧ s.id = platform.newGuid n
  messages : ∀ s ∈ backend.context.chatSessions, s ∈ backend'.context.chatSessions →
    backend.context.messagesOf s.id <+: backend'.context.messagesOf s.id

theorem Grows.refl (backend : Backend) : Grows platform backend backend :=
  ⟨le_rfl, fun _ hs => .inl hs, fun _ _ _ => List.prefix_rfl⟩

/-- A session that is gone does not come back. -/
theorem Grows.trans {b b' b'' : Backend} (hsound : b.Sound platform) (h : Grows platform b b')
    (h' : Grows platform b' b'') : Grows platform b b'' where
  drawn_le := h.drawn_le.trans h'.drawn_le
  known s hs := by
    rcases h'.known s hs with hs | ⟨n, hn, hid⟩
    · exact h.known s hs
    · exact .inr ⟨n, h.drawn_le.trans hn, hid⟩
  messages s hs hs'' := by
    rcases h'.known s hs'' with hs' | ⟨n, hn, hid⟩
    · exact (h.messages s hs hs').trans (h'.messages s hs' hs'')
    · exact absurd hid (hsound.fresh s hs n (h.drawn_le.trans hn))

section Rows

variable {backend backend' : Backend}

/-- A step that only draws GUIDs. -/
theorem Backend.Intact.draw (h : backend.Intact platform) (n : ℕ) :
    (⟨backend.context, backend.drawn + n⟩ : Backend).Intact platform ∧
      Grows platform backend ⟨backend.context, backend.drawn + n⟩ where
  left :=
    { users_nodup := h.users_nodup
      sessions := ⟨h.sessions.ids_nodup, h.sessions.owned, fun s hs k hk =>
        h.sessions.fresh s hs k ((Nat.le_add_right _ _).trans hk)⟩
      messages_nodup := h.messages_nodup
      messages_fresh := fun m hm k hk => h.messages_fresh m hm k ((Nat.le_add_right _ _).trans hk)
      filed := h.filed
      turns := h.turns }
  right := ⟨Nat.le_add_right _ _, fun _ hs => .inl hs, fun _ _ _ => List.prefix_rfl⟩

/-- **A registration** touches no session and no message. -/
theorem Backend.Intact.register (h : backend.Intact platform) (username password salt : String) :
    (registerAsync platform backend username password salt).2.Intact platform ∧
      Grows platform backend (registerAsync platform backend username password salt).2 := by
  unfold registerAsync AppDbContext.addUser
  by_cases htaken : ∃ u ∈ backend.context.users,
      u.id = (backend.newUser platform username password salt).id
  · simp only [htaken, if_true]
    exact h.draw 1
  · simp only [htaken, if_false]
    obtain ⟨hdrawn, hgrows⟩ := h.draw 1
    refine ⟨⟨?_, ⟨hdrawn.sessions.ids_nodup, fun s hs => ?_, hdrawn.sessions.fresh⟩,
      hdrawn.messages_nodup, hdrawn.messages_fresh, hdrawn.filed, hdrawn.turns⟩,
      ⟨hgrows.drawn_le, hgrows.known, hgrows.messages⟩⟩
    · rw [List.map_append, List.map_singleton]
      refine List.nodup_append.2 ⟨h.users_nodup, List.nodup_singleton _, fun a ha b hb hab => ?_⟩
      obtain ⟨u, hu, rfl⟩ := List.mem_map.1 ha
      exact htaken ⟨u, hu, hab.trans (List.mem_singleton.1 hb)⟩
    · obtain ⟨user, huser, hid⟩ := h.sessions.owned s hs
      exact ⟨user, List.mem_append_left _ huser, hid⟩

/-- **Saved messages** are one more turn of their session. -/
theorem Backend.Intact.saveMessages (h : backend.Intact platform)
    (sessionId prompt aiResponse : String) :
    ((saveMessagesAsync platform backend sessionId prompt aiResponse).getD
        { backend with drawn := backend.drawn + 2 }).Intact platform ∧
      Grows platform backend ((saveMessagesAsync platform backend sessionId prompt aiResponse).getD
        { backend with drawn := backend.drawn + 2 }) := by
  rw [saveMessagesAsync_eq]
  by_cases hsession : ∃ session ∈ backend.context.chatSessions, session.id = sessionId
  · rw [if_pos hsession, Option.getD_some]
    have hmessages (id : String) :
        (backend.context.chatMessages ++
            backend.turnRows platform sessionId prompt aiResponse).filter (·.sessionId = id)
          = backend.context.messagesOf id ++
            if sessionId = id then backend.turnRows platform sessionId prompt aiResponse else [] := by
      rw [List.filter_append, AppDbContext.messagesOf]
      by_cases hid : sessionId = id <;> simp [hid, Backend.turnRows]
    obtain ⟨hdrawn, hgrows⟩ := h.draw 2
    constructor
    · refine ⟨h.users_nodup, ⟨h.sessions.ids_nodup, h.sessions.owned, hdrawn.sessions.fresh⟩,
        ?_, ?_, ?_, fun id => ?_⟩
      · rw [List.map_append]
        refine List.nodup_append.2 ⟨h.messages_nodup, ?_, fun a ha b hb hab => ?_⟩
        · have hne : platform.newGuid backend.drawn ≠ platform.newGuid (backend.drawn + 1) :=
            fun heq => (Nat.lt_succ_self _).ne (platform.newGuid_injective heq)
          simpa using hne
        · obtain ⟨m, hm, rfl⟩ := List.mem_map.1 ha
          simp only [List.map_cons, List.map_nil, List.mem_cons, List.not_mem_nil, or_false] at hb
          rcases hb with rfl | rfl
          · exact h.messages_fresh m hm _ le_rfl hab
          · exact h.messages_fresh m hm _ (Nat.le_succ _) hab
      · refine List.forall_mem_append.2 ⟨hdrawn.messages_fresh, ?_⟩
        simp only [List.forall_mem_cons, List.not_mem_nil, IsEmpty.forall_iff, implies_true,
          and_true]
        exact ⟨fun n hn heq => absurd (platform.newGuid_injective heq) (by omega),
          fun n hn heq => absurd (platform.newGuid_injective heq) (by omega)⟩
      · refine List.forall_mem_append.2 ⟨h.filed, ?_⟩
        simpa using hsession
      · obtain ⟨turns, hturns⟩ := h.turns id
        have hafter := congrArg (List.map fun m => (m.role, m.content)) (hmessages id)
        rw [List.map_append, hturns] at hafter
        by_cases hid : sessionId = id
        · refine ⟨turns ++ [(prompt, aiResponse)], hafter.trans ?_⟩
          rw [if_pos hid, transcriptOf, transcriptOf, List.flatMap_append]
          rfl
        · refine ⟨turns, hafter.trans ?_⟩
          rw [if_neg hid, List.map_nil, List.append_nil]
    · exact ⟨hgrows.drawn_le, hgrows.known, fun s _ _ => ⟨_, (hmessages s.id).symm⟩⟩
  · rw [if_neg hsession, Option.getD_none]
    exact h.draw 2

/-- The messages of the sessions that are removed go, and no others. -/
theorem messagesOf_removeSessions (context : AppDbContext) (removed : List ChatSession)
    (id : String) : (context.removeSessions removed).messagesOf id =
      if ∃ s ∈ removed, s.id = id then [] else context.messagesOf id := by
  rw [AppDbContext.messagesOf, AppDbContext.removeSessions, List.filter_filter]
  by_cases hid : ∃ s ∈ removed, s.id = id
  · obtain ⟨s, hs, rfl⟩ := hid
    rw [if_pos ⟨s, hs, rfl⟩, List.filter_eq_nil_iff]
    intro m _ hm
    simp only [Bool.and_eq_true, decide_eq_true_iff] at hm
    exact hm.2 s hs hm.1.symm
  · rw [if_neg hid]
    refine List.filter_congr fun m _ => ?_
    by_cases hm : m.sessionId = id
    · have hstays : ∀ s ∈ removed, s.id ≠ id := fun s hs heq => hid ⟨s, hs, heq⟩
      simpa [hm] using hstays
    · simp [hm]

/-- **Sessions that are removed** take their messages with them, and leave the others. -/
theorem Backend.Intact.removeSessions (h : backend.Intact platform) {removed : List ChatSession}
    (hthere : ∀ s ∈ removed, s ∈ backend.context.chatSessions) :
    (⟨backend.context.removeSessions removed, backend.drawn⟩ : Backend).Intact platform ∧
      Grows platform backend ⟨backend.context.removeSessions removed, backend.drawn⟩ := by
  refine ⟨⟨h.users_nodup, ⟨?_, fun s hs => h.sessions.owned s (List.mem_of_mem_filter hs),
    fun s hs => h.sessions.fresh s (List.mem_of_mem_filter hs)⟩, ?_,
    fun m hm => h.messages_fresh m (List.mem_of_mem_filter hm), fun m hm => ?_, fun id => ?_⟩,
    le_rfl, fun s hs => .inl (List.mem_of_mem_filter hs), fun s hs hs' => ?_⟩
  · exact h.sessions.ids_nodup.sublist (List.filter_sublist.map _)
  · exact h.messages_nodup.sublist (List.filter_sublist.map _)
  · obtain ⟨s, hs, hid⟩ := h.filed m (List.mem_of_mem_filter hm)
    have hstays : ∀ t ∈ removed, t.id ≠ m.sessionId := by simpa using (List.mem_filter.1 hm).2
    exact ⟨s, List.mem_filter.2 ⟨hs, decide_eq_true fun hmem => hstays s hmem hid⟩, hid⟩
  · rw [messagesOf_removeSessions]
    split_ifs
    · exact ⟨[], rfl⟩
    · exact h.turns id
  · have hnot : s ∉ removed := by simpa using (List.mem_filter.1 hs').2
    rw [messagesOf_removeSessions, if_neg]
    rintro ⟨t, ht, hid⟩
    exact hnot (List.inj_on_of_nodup_map h.sessions.ids_nodup (hthere t ht) hs hid ▸ ht)

/-- **A new session** has no messages yet. -/
theorem Backend.Intact.addSession (h : backend.Intact platform) (call : CreateCall)
    (huser : ∃ user ∈ backend.context.users, user.id = call.userId) :
    (⟨{ backend.context with
        chatSessions := backend.context.chatSessions ++ [backend.newSession platform call] },
      backend.drawn + 1⟩ : Backend).Intact platform ∧
      Grows platform backend ⟨{ backend.context with
          chatSessions := backend.context.chatSessions ++ [backend.newSession platform call] },
        backend.drawn + 1⟩ := by
  obtain ⟨hdrawn, hgrows⟩ := h.draw 1
  refine ⟨⟨h.users_nodup, ⟨?_, ?_, ?_⟩, h.messages_nodup, hdrawn.messages_fresh, fun m hm => ?_,
    h.turns⟩, hgrows.drawn_le, ?_, fun s _ _ => List.prefix_rfl⟩
  · rw [List.map_append, List.map_singleton]
    refine List.nodup_append.2 ⟨h.sessions.ids_nodup, List.nodup_singleton _,
      fun a ha b hb hab => ?_⟩
    obtain ⟨s, hs, rfl⟩ := List.mem_map.1 ha
    rw [List.mem_singleton.1 hb] at hab
    exact h.sessions.fresh s hs backend.drawn le_rfl hab
  · exact List.forall_mem_append.2 ⟨h.sessions.owned, List.forall_mem_singleton.2 huser⟩
  · refine List.forall_mem_append.2 ⟨hdrawn.sessions.fresh, List.forall_mem_singleton.2 ?_⟩
    intro n hn heq
    exact (Nat.lt_of_succ_le hn).ne (platform.newGuid_injective heq)
  · obtain ⟨s, hs, hid⟩ := h.filed m hm
    exact ⟨s, List.mem_append_left _ hs, hid⟩
  · exact List.forall_mem_append.2 ⟨fun s hs => .inl hs,
      List.forall_mem_singleton.2 (.inr ⟨_, le_rfl, rfl⟩)⟩

/-- **A call that saves** removes rows and adds one, or does nothing. -/
theorem Backend.Intact.save (h : backend.Intact platform) (o : OpenCall) :
    (((o.save platform maxSessionsPerUser backend).map Prod.snd).getD
        { backend with drawn := backend.drawn + 1 }).Intact platform ∧
      Grows platform backend (((o.save platform maxSessionsPerUser backend).map Prod.snd).getD
        { backend with drawn := backend.drawn + 1 }) := by
  cases hsave : o.save platform maxSessionsPerUser backend with
  | none => exact h.draw 1
  | some made =>
      obtain ⟨session, after⟩ := made
      obtain ⟨hthere, hmade⟩ := o.save_spec hsave
      rw [createSessionFrom_eq] at hmade
      split_ifs at hmade with huser
      obtain ⟨hremoved, hgrows⟩ := h.removeSessions hthere
      obtain ⟨hadded, hgrows'⟩ := hremoved.addSession o.call huser
      rw [← (Prod.mk.inj (Option.some.inj hmade)).2]
      exact ⟨hadded, hgrows.trans h.sessions hgrows'⟩

end Rows

/-- **One step** keeps the database intact. -/
theorem Backend.Intact.step {s s' : Services} (h : s.backend.Intact platform)
    (hs : ServiceStep platform maxSessionsPerUser s s') :
    s'.backend.Intact platform ∧ Grows platform s.backend s'.backend := by
  cases hs with
  | query | abandon => exact ⟨h, .refl _⟩
  | save before after o => exact h.save o
  | register username password salt => exact h.register username password salt
  | saveMessages sessionId prompt aiResponse => exact h.saveMessages sessionId prompt aiResponse

/-- **The database in any run.**  Whatever calls run at the same time, ids are unique, every
session belongs to a user and every message to a session, and a session holds whole turns.
A session that is gone stays gone, and while it is there its messages are the earlier ones
with more behind them. -/
theorem transcripts_grow {s s' : Services} (h : s.backend.Intact platform)
    (hrun : Relation.ReflTransGen (ServiceStep platform maxSessionsPerUser) s s') :
    s'.backend.Intact platform ∧ Grows platform s.backend s'.backend := by
  induction hrun with
  | refl => exact ⟨h, .refl _⟩
  | tail _ hs ih =>
      obtain ⟨hintact, hgrows⟩ := ih
      obtain ⟨hintact', hgrows'⟩ := hintact.step hs
      exact ⟨hintact', hgrows.trans h.sessions hgrows'⟩

/-- A database without sessions. -/
def aliceOnly : Backend := ⟨⟨[⟨"alice", "alice", ""⟩], [], []⟩, 0⟩

theorem intact_aliceOnly : aliceOnly.Intact plainPlatform where
  users_nodup := List.nodup_singleton _
  sessions := ⟨List.nodup_nil, List.forall_mem_nil _, List.forall_mem_nil _⟩
  messages_nodup := List.nodup_nil
  messages_fresh := List.forall_mem_nil _
  filed := List.forall_mem_nil _
  turns _ := ⟨[], rfl⟩

/-- Alice makes a session, and a turn is saved in it. -/
theorem tides_saved : ∃ s', Relation.ReflTransGen (ServiceStep plainPlatform 20) ⟨aliceOnly, []⟩ s' ∧
    s'.backend.Intact plainPlatform ∧
      s'.backend.context.chatMessages.map ChatMessage.content
        = ["What makes the tides?", "The moon."] := by
  let o : OpenCall := ⟨⟨"alice", "Tides", 5⟩, []⟩
  have hasked : ServiceStep plainPlatform 20 ⟨aliceOnly, []⟩ ⟨aliceOnly, [o]⟩ :=
    .query ⟨.refl _, .nil⟩
  let talking : Backend := ((o.save plainPlatform 20 aliceOnly).map Prod.snd).getD
    { aliceOnly with drawn := aliceOnly.drawn + 1 }
  have hmade : ServiceStep plainPlatform 20 ⟨aliceOnly, [o]⟩ ⟨talking, []⟩ := .save [] [] o
  let told : Backend := (saveMessagesAsync plainPlatform talking (plainPlatform.newGuid 0)
    "What makes the tides?" "The moon.").getD { talking with drawn := talking.drawn + 2 }
  have htold : ServiceStep plainPlatform 20 ⟨talking, []⟩ ⟨told, []⟩ := .saveMessages _ _ _
  have hrun : Relation.ReflTransGen (ServiceStep plainPlatform 20) ⟨aliceOnly, []⟩ ⟨told, []⟩ :=
    ((Relation.ReflTransGen.single hasked).tail hmade).tail htold
  exact ⟨_, hrun, (transcripts_grow intact_aliceOnly hrun).1, by decide +kernel⟩

end Web
end CognitiveEngine
