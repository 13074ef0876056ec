/-
# The cap on the sessions of a user

`ChatSessionService.CreateSessionAsync` (`Application/Services/ChatSessionService.cs`)
called again and again, by any users, on any database.  The query orders the sessions of
the user by the time of their creation and says nothing of equal times, so the rows may
come in any such order here; `createSessionAsync_eq` says that the function of `Sessions`
is the one with the order of the table.

The database may hold more sessions than the limit, as it does after the limit was
lowered.  `sessions_capped` says that each call leaves the limit respected and the newest
in place: what it removes is what was needed, and the oldest.
-/

import CognitiveEngine.Machine.Positions
import CognitiveEngine.Web.Sessions

namespace CognitiveEngine
namespace Web

open CognitiveEngine.Machine

/-! ### One call -/

/-- The sessions of a user. -/
def AppDbContext.sessionsOf (context : AppDbContext) (userId : String) : List ChatSession :=
  context.chatSessions.filter (·.userId = userId)

/-- Rows that `OrderBy(s => s.CreatedAt)` may give for a user. -/
structure OrderedRows (context : AppDbContext) (userId : String) (rows : List ChatSession) :
    Prop where
  perm : rows.Perm (context.sessionsOf userId)
  ordered : rows.Pairwise fun s t => s.createdAt ≤ t.createdAt

/-- The arguments of a call, and the time at which it is made. -/
structure CreateCall where
  userId : String
  initialTitle : String
  now : ℕ

variable (platform : Platform) (maxSessionsPerUser : ℤ)

/-- The sessions to delete of those the query gave. -/
def sessionsToDelete (userSessions : List ChatSession) : List ChatSession :=
  if maxSessionsPerUser ≤ userSessions.length then
    userSessions.take ((userSessions.length : ℤ) - maxSessionsPerUser + 1).toNat
  else []

/-- The row `CreateSessionAsync` makes. -/
def Backend.newSession (backend : Backend) (call : CreateCall) : ChatSession :=
  ⟨platform.newGuid backend.drawn, call.userId, call.initialTitle, call.now, call.now⟩

/-- `CreateSessionAsync`, from the rows of its query on. -/
def createSessionFrom (userSessions : List ChatSession) (backend : Backend) (call : CreateCall) :
    Option (ChatSession × Backend) :=
  let newSession := backend.newSession platform call
  ((backend.context.removeSessions (sessionsToDelete maxSessionsPerUser userSessions)).addSession
    newSession).map fun context => (newSession, ⟨context, backend.drawn + 1⟩)

/-- The query may give the rows in the order in which they were inserted. -/
theorem createSessionAsync_eq (backend : Backend) (call : CreateCall) :
    ∃ rows, OrderedRows backend.context call.userId rows ∧
      createSessionAsync platform maxSessionsPerUser backend call.userId call.initialTitle call.now
        = createSessionFrom platform maxSessionsPerUser rows backend call := by
  have : Std.Total fun s t : ChatSession => s.createdAt ≤ t.createdAt :=
    ⟨fun s t => le_total s.createdAt t.createdAt⟩
  have : IsTrans ChatSession fun s t => s.createdAt ≤ t.createdAt :=
    ⟨fun _ _ _ hst htu => hst.trans htu⟩
  exact ⟨_, ⟨List.perm_insertionSort _ _, List.pairwise_insertionSort _ _⟩, rfl⟩

/-- One call: the query gives its rows in some order, and nothing is written when the call
raises. -/
def CreateStep (backend : Backend) (call : CreateCall) (reply : Option (ChatSession × Backend))
    (backend' : Backend) : Prop :=
  ∃ rows, OrderedRows backend.context call.userId rows ∧
    reply = createSessionFrom platform maxSessionsPerUser rows backend call ∧
    backend' = (reply.map Prod.snd).getD ⟨backend.context, backend.drawn + 1⟩

/-- What the database keeps to: the primary and the foreign key of the sessions, and that a
GUID which has not been drawn is no id yet. -/
structure Backend.Sound (backend : Backend) : Prop where
  ids_nodup : (backend.context.chatSessions.map ChatSession.id).Nodup
  owned : ∀ s ∈ backend.context.chatSessions, ∃ user ∈ backend.context.users, user.id = s.userId
  fresh : ∀ s ∈ backend.context.chatSessions, ∀ n, backend.drawn ≤ n → s.id ≠ platform.newGuid n

/-! ### What a call does -/

/-- A call that made a session kept the newest ones. -/
structure KeepsNewest (call : CreateCall) (session : ChatSession) (before after : AppDbContext) :
    Prop where
  bounded : ((after.sessionsOf call.userId).length : ℤ) ≤ maxSessionsPerUser
  present : session ∈ after.sessionsOf call.userId
  /-- Nothing else is new. -/
  others_known : ∀ s ∈ after.sessionsOf call.userId, s = session ∨ s ∈ before.sessionsOf call.userId
  /-- No session that was removed is newer than one that was kept. -/
  oldest_removed : ∀ removed ∈ before.sessionsOf call.userId,
    removed ∉ after.sessionsOf call.userId →
    ∀ kept ∈ before.sessionsOf call.userId, kept ∈ after.sessionsOf call.userId →
      removed.createdAt ≤ kept.createdAt
  /-- As many were removed as had to be. -/
  removed_needed : (((before.sessionsOf call.userId).filter
      (· ∉ after.sessionsOf call.userId)).length : ℤ)
    = max 0 ((before.sessionsOf call.userId).length + 1 - maxSessionsPerUser)
  others_unchanged : ∀ other, other ≠ call.userId → after.sessionsOf other = before.sessionsOf other

section OneCall

variable {platform} {maxSessionsPerUser} {backend : Backend} {call : CreateCall}
  {rows : List ChatSession} {session : ChatSession} {after : Backend}

/-- The first ones are deleted, as many as there are too many. -/
theorem sessionsToDelete_eq (rows : List ChatSession) :
    sessionsToDelete maxSessionsPerUser rows
      = rows.take ((rows.length : ℤ) - maxSessionsPerUser + 1).toNat := by
  unfold sessionsToDelete
  split_ifs with h
  · rfl
  · have hnone : ((rows.length : ℤ) - maxSessionsPerUser + 1).toNat = 0 := by omega
    rw [hnone, List.take_zero]

/-- **What a call writes**, if its user is there. -/
theorem createSessionFrom_eq :
    createSessionFrom platform maxSessionsPerUser rows backend call
      = if ∃ user ∈ backend.context.users, user.id = call.userId then
          some (backend.newSession platform call,
            ⟨⟨backend.context.users,
              backend.context.chatSessions.filter (· ∉ sessionsToDelete maxSessionsPerUser rows) ++
                [backend.newSession platform call],
              backend.context.chatMessages.filter fun m =>
                ∀ s ∈ sessionsToDelete maxSessionsPerUser rows, s.id ≠ m.sessionId⟩,
              backend.drawn + 1⟩)
        else none := by
  by_cases huser : ∃ user ∈ backend.context.users, user.id = call.userId
  · rw [if_pos huser]
    exact congrArg (Option.map _) (if_pos huser)
  · rw [if_neg huser]
    exact congrArg (Option.map _) (if_neg huser)

/-- A call that returns has made its session and kept all but what it deleted. -/
theorem createSessionFrom_spec
    (h : createSessionFrom platform maxSessionsPerUser rows backend call = some (session, after)) :
    session = backend.newSession platform call ∧ after.drawn = backend.drawn + 1 ∧
      after.context.users = backend.context.users ∧
      (∃ user ∈ backend.context.users, user.id = call.userId) ∧
      after.context.chatSessions = backend.context.chatSessions.filter
        (· ∉ sessionsToDelete maxSessionsPerUser rows) ++ [session] := by
  rw [createSessionFrom_eq] at h
  split_ifs at h with huser
  obtain ⟨rfl, rfl⟩ := Prod.mk.inj (Option.some.inj h)
  exact ⟨rfl, rfl, rfl, huser, rfl⟩

/-- A session that is not there yet has the id of no session. -/
theorem Backend.Sound.newSession_notMem (h : backend.Sound platform) :
    backend.newSession platform call ∉ backend.context.chatSessions :=
  fun hmem => h.fresh _ hmem backend.drawn le_rfl rfl

/-- The sessions of a user after a call. -/
theorem sessionsOf_after
    (h : createSessionFrom platform maxSessionsPerUser rows backend call = some (session, after))
    (userId : String) :
    after.context.sessionsOf userId
      = (backend.context.sessionsOf userId).filter
          (· ∉ sessionsToDelete maxSessionsPerUser rows) ++
        if call.userId = userId then [session] else [] := by
  obtain ⟨rfl, -, -, -, hsessions⟩ := createSessionFrom_spec h
  unfold AppDbContext.sessionsOf
  rw [hsessions, List.filter_append, List.filter_filter, List.filter_filter]
  congr 1
  · exact List.filter_congr fun s _ => Bool.and_comm _ _
  · by_cases huser : call.userId = userId <;> simp [Backend.newSession, huser]

/-- The user's sessions are as many as the rows, each once. -/
theorem OrderedRows.nodup (hrows : OrderedRows backend.context call.userId rows)
    (hsound : backend.Sound platform) : rows.Nodup :=
  hrows.perm.nodup_iff.2 (hsound.ids_nodup.of_map.sublist List.filter_sublist)

/-- Only the user's own sessions are deleted. -/
theorem OrderedRows.userId_of_deleted (hrows : OrderedRows backend.context call.userId rows)
    {s : ChatSession} (hs : s ∈ sessionsToDelete maxSessionsPerUser rows) :
    s.userId = call.userId := by
  rw [sessionsToDelete_eq] at hs
  have hown : s ∈ backend.context.sessionsOf call.userId :=
    hrows.perm.mem_iff.1 (List.mem_of_mem_take hs)
  exact of_decide_eq_true (List.mem_filter.1 hown).2

variable (maxSessionsPerUser) in
/-- How many sessions of the user are kept. -/
theorem OrderedRows.length_kept (hrows : OrderedRows backend.context call.userId rows)
    (hsound : backend.Sound platform) :
    ((backend.context.sessionsOf call.userId).filter
        (· ∉ sessionsToDelete maxSessionsPerUser rows)).length
      = (backend.context.sessionsOf call.userId).length
        - (((backend.context.sessionsOf call.userId).length : ℤ) - maxSessionsPerUser + 1).toNat := by
  rw [← (hrows.perm.filter (· ∉ sessionsToDelete maxSessionsPerUser rows)).length_eq,
    sessionsToDelete_eq, filter_notMem_take (hrows.nodup hsound), List.length_drop,
    hrows.perm.length_eq]

/-- What is deleted is not newer than what is not. -/
theorem OrderedRows.createdAt_le (hrows : OrderedRows backend.context call.userId rows)
    {s t : ChatSession} (hs : s ∈ sessionsToDelete maxSessionsPerUser rows)
    (ht : t ∈ backend.context.sessionsOf call.userId)
    (hkept : t ∉ sessionsToDelete maxSessionsPerUser rows) : s.createdAt ≤ t.createdAt := by
  rw [sessionsToDelete_eq] at hs hkept
  have hordered := hrows.ordered
  rw [← List.take_append_drop ((rows.length : ℤ) - maxSessionsPerUser + 1).toNat rows] at hordered
  have hrow : t ∈ rows := hrows.perm.mem_iff.2 ht
  rw [← List.take_append_drop ((rows.length : ℤ) - maxSessionsPerUser + 1).toNat rows,
    List.mem_append] at hrow
  exact (List.pairwise_append.1 hordered).2.2 s hs t (hrow.resolve_left hkept)

/-- Of the user's sessions those are gone that were deleted. -/
theorem notMem_after_iff (hsound : backend.Sound platform)
    (h : createSessionFrom platform maxSessionsPerUser rows backend call = some (session, after))
    {s : ChatSession} (hs : s ∈ backend.context.sessionsOf call.userId) :
    s ∉ after.context.sessionsOf call.userId ↔ s ∈ sessionsToDelete maxSessionsPerUser rows := by
  have hne : s ≠ session := by
    rintro rfl
    exact hsound.newSession_notMem ((createSessionFrom_spec h).1 ▸ List.mem_of_mem_filter hs)
  rw [sessionsOf_after h, if_pos rfl, List.mem_append, List.mem_filter, List.mem_singleton]
  simp [hs, hne]

/-- **One call keeps the newest.** -/
theorem keepsNewest (hM : 1 ≤ maxSessionsPerUser) (hsound : backend.Sound platform)
    (hrows : OrderedRows backend.context call.userId rows)
    (h : createSessionFrom platform maxSessionsPerUser rows backend call = some (session, after)) :
    KeepsNewest maxSessionsPerUser call session backend.context after.context := by
  have hafter := sessionsOf_after h call.userId
  rw [if_pos rfl] at hafter
  have hkept := hrows.length_kept maxSessionsPerUser hsound
  constructor
  case bounded =>
    rw [hafter, List.length_append, List.length_singleton, hkept]
    omega
  case present =>
    rw [hafter]
    exact List.mem_append_right _ (List.mem_singleton_self session)
  case others_known =>
    intro s hs
    rw [hafter, List.mem_append, List.mem_singleton] at hs
    exact hs.symm.imp_right List.mem_of_mem_filter
  case oldest_removed =>
    intro removed hr hgone kept hk hstays
    exact hrows.createdAt_le ((notMem_after_iff hsound h hr).1 hgone) hk
      fun hmem => (notMem_after_iff hsound h hk).2 hmem hstays
  case removed_needed =>
    have hcount := List.length_eq_length_filter_add (l := backend.context.sessionsOf call.userId)
      fun s => decide (s ∉ sessionsToDelete maxSessionsPerUser rows)
    have hgone : (backend.context.sessionsOf call.userId).filter
          (· ∉ after.context.sessionsOf call.userId)
        = (backend.context.sessionsOf call.userId).filter
          fun s => !decide (s ∉ sessionsToDelete maxSessionsPerUser rows) := by
      refine List.filter_congr fun s hs => ?_
      rw [← decide_not, decide_eq_decide, notMem_after_iff hsound h hs, not_not]
    rw [hgone]
    omega
  case others_unchanged =>
    intro other hother
    rw [sessionsOf_after h, if_neg (Ne.symm hother), List.append_nil, List.filter_eq_self]
    intro s hs
    refine decide_eq_true fun hmem => hother ?_
    rw [← hrows.userId_of_deleted hmem]
    exact (of_decide_eq_true (List.mem_filter.1 hs).2).symm

/-- The database keeps to its constraints. -/
theorem Backend.Sound.step {reply : Option (ChatSession × Backend)} {backend' : Backend}
    (hsound : backend.Sound platform)
    (hstep : CreateStep platform maxSessionsPerUser backend call reply backend') :
    backend'.Sound platform := by
  obtain ⟨rows, -, rfl, rfl⟩ := hstep
  cases h : createSessionFrom platform maxSessionsPerUser rows backend call with
  | none =>
      exact ⟨hsound.ids_nodup, hsound.owned,
        fun s hs n hn => hsound.fresh s hs n ((Nat.le_succ _).trans hn)⟩
  | some made =>
      obtain ⟨session, after⟩ := made
      rw [Option.map_some, Option.getD_some]
      obtain ⟨hsession, hdrawn, husers, huser, hsessions⟩ := createSessionFrom_spec h
      have hid : session.id = platform.newGuid backend.drawn := by rw [hsession]; rfl
      constructor
      case ids_nodup =>
        rw [hsessions, List.map_append, List.map_singleton]
        refine List.nodup_append.2 ⟨hsound.ids_nodup.sublist (List.filter_sublist.map _),
          List.nodup_singleton _, fun a ha b hb hab => ?_⟩
        obtain ⟨s, hs, rfl⟩ := List.mem_map.1 ha
        rw [List.mem_singleton.1 hb, hid] at hab
        exact hsound.fresh s (List.mem_of_mem_filter hs) backend.drawn le_rfl hab
      case owned =>
        intro s hs
        rw [husers]
        rw [hsessions, List.mem_append, List.mem_singleton] at hs
        rcases hs with hs | rfl
        · exact hsound.owned s (List.mem_of_mem_filter hs)
        · rw [hsession]
          exact huser
      case fresh =>
        intro s hs n hn
        rw [hdrawn] at hn
        rw [hsessions, List.mem_append, List.mem_singleton] at hs
        rcases hs with hs | rfl
        · exact hsound.fresh s (List.mem_of_mem_filter hs) n ((Nat.le_succ _).trans hn)
        · rw [hid]
          exact fun heq => (Nat.lt_of_succ_le hn).ne (platform.newGuid_injective heq)

end OneCall

/-! ### Any number of calls -/

section Calls

variable {platform} {maxSessionsPerUser} {backend backend' : Backend}
  {es : List (Event Backend CreateCall (Option (ChatSession × Backend)))}

/-- The calls are made one after another, and no session in the database is from after
them. -/
structure InOrder (backend : Backend)
    (es : List (Event Backend CreateCall (Option (ChatSession × Backend)))) : Prop where
  stored : ∀ s ∈ backend.context.chatSessions, ∀ e ∈ es, s.createdAt ≤ e.input.now
  calls : es.Pairwise fun e f => e.input.now ≤ f.input.now

/-- At every call the sessions that are stored are from before it. -/
theorem InOrder.stored_le (hin : InOrder backend es)
    (ht : Trace (CreateStep platform maxSessionsPerUser) backend es backend') :
    ∀ e ∈ es, ∀ s ∈ e.before.context.chatSessions, s.createdAt ≤ e.input.now := by
  induction ht with
  | nil => exact fun e he => absurd he List.not_mem_nil
  | @cons backend after _ call reply es hstep ht ih =>
      obtain ⟨hcall, hcalls⟩ := List.pairwise_cons.1 hin.calls
      refine List.forall_mem_cons.2 ⟨fun s hs => hin.stored s hs _ List.mem_cons_self, ?_⟩
      refine ih ⟨fun s hs e he => ?_, hcalls⟩
      have hbefore : ∀ t ∈ backend.context.chatSessions, t.createdAt ≤ e.input.now :=
        fun t ht => hin.stored t ht e (List.mem_cons_of_mem _ he)
      obtain ⟨rows, -, rfl, rfl⟩ := hstep
      cases h : createSessionFrom platform maxSessionsPerUser rows backend call with
      | none =>
          rw [h] at hs
          exact hbefore s hs
      | some made =>
          obtain ⟨session, made⟩ := made
          rw [h, Option.map_some, Option.getD_some] at hs
          obtain ⟨hsession, -, -, -, hsessions⟩ := createSessionFrom_spec h
          rw [hsessions, List.mem_append, List.mem_singleton] at hs
          rcases hs with hs | rfl
          · exact hbefore s (List.mem_of_mem_filter hs)
          · rw [hsession]
            exact hcall e he

/-- **The cap keeps the newest.**  Whatever the database holds, after each call that
returns the user has no more sessions than the limit, the new one is among them, what was
removed is the oldest and no more than was needed, and nobody else's sessions are touched.
If the calls and what is stored are in order of time, no session is newer than the new one.
A call raises only for a user who is not there. -/
theorem sessions_capped (hM : 1 ≤ maxSessionsPerUser) (hsound : backend.Sound platform)
    (ht : Trace (CreateStep platform maxSessionsPerUser) backend es backend') :
    ∀ e ∈ es,
      (e.output = none ↔ ¬ ∃ user ∈ e.before.context.users, user.id = e.input.userId) ∧
      ∀ session after, e.output = some (session, after) →
        KeepsNewest maxSessionsPerUser e.input session e.before.context after.context ∧
        session.createdAt = e.input.now ∧
        (InOrder backend es →
          ∀ s ∈ e.before.context.sessionsOf e.input.userId, s.createdAt ≤ session.createdAt) := by
  intro e he
  have hbefore : e.before.Sound platform :=
    (ht.invariant (P := fun b => b.Sound platform) (fun hs hstep => hs.step hstep) hsound).2 e he
  obtain ⟨after, rows, hrows, houtput, -⟩ := ht.step_of_mem he
  refine ⟨?_, fun session after hsome => ?_⟩
  · rw [houtput, createSessionFrom_eq]
    split_ifs with huser
    · exact iff_of_false nofun (not_not.2 huser)
    · exact iff_of_true rfl huser
  · have hmade := houtput.symm.trans hsome
    have hnow : session.createdAt = e.input.now := by
      rw [(createSessionFrom_spec hmade).1]
      rfl
    refine ⟨keepsNewest hM hbefore hrows hmade, hnow, fun hin s hs => ?_⟩
    rw [hnow]
    exact hin.stored_le ht e he s (List.mem_of_mem_filter hs)

end Calls

/-! ### A limit that was lowered -/

/-- Alice with three sessions. -/
def aliceTalking : Backend where
  context :=
    { users := [⟨"alice", "alice", ""⟩]
      chatSessions := [⟨plainPlatform.newGuid 0, "alice", "Tides", 5, 5⟩,
        ⟨plainPlatform.newGuid 1, "alice", "Moons", 3, 8⟩,
        ⟨plainPlatform.newGuid 2, "alice", "Comets", 9, 9⟩]
      chatMessages := [] }
  drawn := 3

theorem sound_aliceTalking : aliceTalking.Sound plainPlatform where
  ids_nodup := by
    have hids : aliceTalking.context.chatSessions.map ChatSession.id
        = [0, 1, 2].map plainPlatform.newGuid := rfl
    rw [hids]
    exact List.Nodup.map plainPlatform.newGuid_injective (by decide)
  owned s hs := ⟨⟨"alice", "alice", ""⟩, List.mem_singleton_self _, by
    simp only [aliceTalking, List.mem_cons, List.not_mem_nil, or_false] at hs
    rcases hs with rfl | rfl | rfl <;> rfl⟩
  fresh s hs n hn := by
    simp only [aliceTalking, List.mem_cons, List.not_mem_nil, or_false] at hs hn
    rcases hs with rfl | rfl | rfl <;>
      exact fun heq => absurd (plainPlatform.newGuid_injective heq) (by omega)

/-- With a limit of two, one more session leaves the newest ones. -/
theorem aliceTalking_capped : ∃ session after,
    createSessionAsync plainPlatform 2 aliceTalking "alice" "Stars" 12 = some (session, after) ∧
      KeepsNewest 2 ⟨"alice", "Stars", 12⟩ session aliceTalking.context after.context := by
  have halice : ∃ user ∈ aliceTalking.context.users, user.id = "alice" :=
    ⟨_, List.mem_singleton_self _, rfl⟩
  obtain ⟨session, after, -, hcreated, -⟩ :=
    createSessionAsync_saves plainPlatform 2 halice "Stars" "" "" 12
  obtain ⟨rows, hrows, hfrom⟩ :=
    createSessionAsync_eq plainPlatform 2 aliceTalking ⟨"alice", "Stars", 12⟩
  have ht : Trace (CreateStep plainPlatform 2) aliceTalking
      [⟨aliceTalking, ⟨"alice", "Stars", 12⟩, some (session, after)⟩] after :=
    .cons ⟨rows, hrows, hcreated.symm.trans hfrom, rfl⟩ (.nil after)
  refine ⟨session, after, hcreated, ?_⟩
  exact ((sessions_capped (by decide) sound_aliceTalking ht _ (List.mem_singleton_self _)).2
    session after rfl).1

end Web
end CognitiveEngine
