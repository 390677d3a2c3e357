import AgentBox.Auth.Accounts

/-!
# Rotated credentials stay dead

What holds in every interleaving of the calls, given that drawn tokens and fresh password hashes are
new. `UsersMove` and `SessionsMove` say once what a transaction does to the tables: accounts stay, a
password hash changes only to a fresh one, a revoked session stays revoked, an auth epoch never goes
back, and a token hash is an old one of the same row or that of a drawn token. From these, a token
hash all of whose sessions are dead is `Spent` for good, and a password hash no active user has is
`Retired` for good.
-/

namespace AgentBox.Auth

open List

variable {now t : ℕ}

/-! ## What a transaction does to the tables -/

/-- The accounts after a transaction that stores the given fresh hashes. -/
structure UsersMove (hashes : List String) (users users' : Dict String AdminUser) : Prop where
  activity : ∀ id, (users'.get? id).map AdminUser.isActive = (users.get? id).map AdminUser.isActive
  hashes : ∀ id user', users'.get? id = some user' → user'.passwordHash ∈ hashes ∨
    ∃ user, users.get? id = some user ∧ user.passwordHash = user'.passwordHash

/-- The sessions after a transaction that draws tokens with the given digests. -/
structure SessionsMove (digests : List String) (sessions sessions' : Dict String ControlPlaneSession) :
    Prop where
  kept : ∀ id row, sessions.get? id = some row → ∃ row', sessions'.get? id = some row' ∧
    row'.userId = row.userId ∧ (row.revokedAt.isSome → row'.revokedAt.isSome) ∧
      row.authEpoch ≤ row'.authEpoch
  tokens : ∀ id row', sessions'.get? id = some row' → row'.tokenHash ∈ digests ∨
    ∃ row, sessions.get? id = some row ∧ row.tokenHash = row'.tokenHash

theorem UsersMove.refl (hashes : List String) (users : Dict String AdminUser) :
    UsersMove hashes users users where
  activity _ := rfl
  hashes _ user' h := .inr ⟨user', h, rfl⟩

theorem UsersMove.set {hashes : List String} {users : Dict String AdminUser} {id : String}
    {user user' : AdminUser} (hget : users.get? id = some user) (hactive : user'.isActive = user.isActive)
    (hhash : user'.passwordHash ∈ hashes ∨ user.passwordHash = user'.passwordHash) :
    UsersMove hashes users (users.set id user') where
  activity j := by
    rw [Dict.get?_set]
    split
    · next hj => subst hj; rw [hget]; simp [hactive]
    · rfl
  hashes j w hw := by
    rcases Dict.of_get?_set hw with ⟨rfl, rfl⟩ | ⟨-, hw⟩
    · exact hhash.imp_right fun h => ⟨user, hget, h⟩
    · exact .inr ⟨w, hw, rfl⟩

namespace SessionsMove

variable {digests : List String} {sessions sessions' : Dict String ControlPlaneSession}
  {id : String} {row : ControlPlaneSession}

theorem refl (digests : List String) (sessions : Dict String ControlPlaneSession) :
    SessionsMove digests sessions sessions where
  kept _ row h := ⟨row, h, rfl, id, le_rfl⟩
  tokens _ row' h := .inr ⟨row', h, rfl⟩

/-- One row is rewritten. -/
theorem set {row' : ControlPlaneSession} (hget : sessions.get? id = some row)
    (huser : row'.userId = row.userId) (hrevoked : row.revokedAt.isSome → row'.revokedAt.isSome)
    (hepoch : row.authEpoch ≤ row'.authEpoch)
    (htoken : row'.tokenHash ∈ digests ∨ row.tokenHash = row'.tokenHash) :
    SessionsMove digests sessions (sessions.set id row') where
  kept j w hw := by
    by_cases hj : j = id
    · subst hj
      cases hget.symm.trans hw
      exact ⟨row', Dict.get?_set_self .., huser, hrevoked, hepoch⟩
    · exact ⟨w, (Dict.get?_set_of_ne _ hj _).trans hw, rfl, fun h => h, le_rfl⟩
  tokens j w hw := by
    rcases Dict.of_get?_set hw with ⟨rfl, rfl⟩ | ⟨-, hw⟩
    · exact htoken.imp_right fun h => ⟨row, hget, h⟩
    · exact .inr ⟨w, hw, rfl⟩

theorem revokeAll (ids : List String) (now : ℕ) :
    SessionsMove digests sessions (revokeAll sessions ids now) where
  kept id row h := by
    refine ⟨_, (Dict.get?_updateKeys ..).trans (by rw [h]; rfl), ?_⟩
    split
    · exact ⟨rfl, fun _ => rfl, le_rfl⟩
    · exact ⟨rfl, fun h => h, le_rfl⟩
  tokens id row' h := by
    rw [Auth.revokeAll, Dict.get?_updateKeys, Option.map_eq_some_iff] at h
    obtain ⟨row, hrow, rfl⟩ := h
    refine .inr ⟨row, hrow, ?_⟩
    split <;> rfl

/-- A row is added to sessions that have moved already. -/
theorem insert (h : SessionsMove digests sessions sessions') (hid : id ∉ sessions)
    (htoken : row.tokenHash ∈ digests) : SessionsMove digests sessions (sessions'.set id row) where
  kept j w hw := by
    have hj : j ≠ id := by
      rintro rfl
      exact hid (Dict.mem_of_get? hw)
    obtain ⟨w', hw', hrest⟩ := h.kept j w hw
    exact ⟨w', (Dict.get?_set_of_ne _ hj _).trans hw', hrest⟩
  tokens j w hw := by
    rcases Dict.of_get?_set hw with ⟨rfl, rfl⟩ | ⟨-, hw⟩
    · exact .inl htoken
    · exact h.tokens j w hw

end SessionsMove

/-- What a transaction does to the tables. -/
def Moves (S : Setting) (w : Write) (d d' : Database) : Prop :=
  UsersMove w.hashes d.users d'.users ∧
    SessionsMove (w.tokens.map S.tokenDigest) d.sessions d'.sessions

section
variable {S : Setting} {d : Database}
  {turn : Turn} {users : Dict String AdminUser} {sessions : Dict String ControlPlaneSession}
    {reply : Reply} {failure : AuthError} {r : Reauthentication}

theorem Moves.refl (S : Setting) (w : Write) (d : Database) : Moves S w d d :=
  ⟨.refl _ _, .refl _ _⟩

theorem moves_commit {w : Write} (husers : UsersMove w.hashes d.users users)
    (hsessions : SessionsMove (w.tokens.map S.tokenDigest) d.sessions sessions) :
    Moves S w d (commit d turn users sessions reply failure).2 := by
  unfold commit
  split
  · exact ⟨husers, hsessions⟩
  · exact .refl S w d

theorem commit_eq_ok {reply' : Reply} (h : (commit d turn users sessions reply failure).1 = .ok reply') :
    reply = reply' ∧ (commit d turn users sessions reply failure).2.users = users ∧
      (commit d turn users sessions reply failure).2.sessions = sessions := by
  by_cases hc : turn.committed = true ∧ Constraints users sessions
  · simp only [commit, dif_pos hc, Except.ok.injEq] at h ⊢
    exact ⟨h, trivial, trivial⟩
  · simp only [commit, dif_neg hc] at h
    cases h

theorem moves_writeLogin {userId encodedHash : String} {replacementHash : Option String} {r : Login} :
    Moves S (.login userId encodedHash replacementHash r) d
      (writeLogin S d userId encodedHash replacementHash r).2 := by
  unfold writeLogin
  split
  · exact .refl ..
  · next user huser =>
    split
    · exact .refl ..
    · split
      · exact .refl ..
      · next hid =>
        refine moves_commit (.set huser rfl ?_) (.insert (.revokeAll _ _) hid (by simp [Write.tokens, Login.row]))
        cases replacementHash with
        | none => exact .inr rfl
        | some h => exact .inl (by simp [Write.hashes, AdminUser.loggedIn])

/-- A token `reauthenticate` settles on was drawn, and its digest is not the one it replaces. -/
theorem of_freshToken {stored : ControlPlaneSession} {token : String}
    (h : freshToken S d r stored = some token) :
    token ∈ r.candidates.take 4 ∧ S.tokenDigest token ≠ stored.tokenHash := by
  have hp := List.find?_some h
  simp only [Bool.and_eq_true, decide_eq_true_eq] at hp
  exact ⟨mem_of_find?_eq_some h, hp.1⟩

theorem moves_writeReauthenticate {observedHash : String} :
    Moves S (.reauthenticate observedHash r) d (writeReauthenticate S d observedHash r).2 := by
  unfold writeReauthenticate
  split
  · exact .refl ..
  · split
    · exact .refl ..
    · next stored user hcontext =>
      split
      · exact .refl ..
      · unfold rotate
        split
        · exact .refl ..
        · next token htoken =>
          split
          · exact .refl ..
          · exact moves_commit (.refl _ _) (.set (of_context hcontext).1 rfl (fun h => h)
              (Nat.le_succ _) (.inl (mem_map_of_mem (of_freshToken htoken).1)))

/-- What `authenticate` accepts is the session with the token hash, open and of an active user. -/
theorem of_accepted {tokenHash id : String} {now : ℕ} {row : ControlPlaneSession} {user : AdminUser}
    (h : accepted d tokenHash now = some (id, row, user)) :
    d.sessions.get? id = some row ∧ row.tokenHash = tokenHash ∧ d.users.get? row.userId = some user ∧
      row.isOpen now = true ∧ user.isActive = true := by
  simp only [accepted, Option.bind_eq_bind, Option.bind_eq_some_iff] at h
  obtain ⟨⟨id', row'⟩, hrow, user', huser, h⟩ := h
  obtain ⟨hget, htoken⟩ := Dict.of_firstEntry hrow
  split at h
  · next hc =>
    cases h
    exact ⟨hget, by simpa using htoken, huser, hc.1, hc.2.1⟩
  · cases h

theorem moves_write (w : Write) : Moves S w d (write S d w).2 := by
  cases w with
  | login userId encodedHash replacementHash r => exact moves_writeLogin
  | reauthenticate observedHash r => exact moves_writeReauthenticate
  | authenticate tokenHash turn =>
    simp only [write, writeAuthenticate]
    split
    · exact .refl ..
    · next id stored user haccepted =>
      exact moves_commit (.refl _ _) (.set (of_accepted haccepted).1 rfl (fun h => h) le_rfl (.inr rfl))
  | revoke sessionId turn =>
    simp only [write, writeRevoke]
    split
    · exact .refl ..
    · next stored hstored =>
      split
      · exact .refl ..
      · exact moves_commit (.refl _ _) (.set hstored rfl (fun _ => rfl) le_rfl (.inr rfl))
  | changePassword adminId observedHash replacementHash turn =>
    simp only [write, writeChangePassword]
    split
    · exact .refl ..
    · next admin hadmin =>
      split
      · exact .refl ..
      · exact moves_commit (.set hadmin rfl (.inl (by simp [Write.hashes]))) (.revokeAll _ _)
  | revokeSessions adminId turn => exact moves_commit (.refl _ _) (.revokeAll _ _)

end

/-! ## Tokens and hashes that are out of use -/

/-- Every session with this token hash is revoked or belongs to a user who is not active. -/
def Spent (d : Database) (tokenHash : String) : Prop :=
  ∀ id row, d.sessions.get? id = some row → row.tokenHash = tokenHash →
    row.revokedAt.isSome ∨ ∀ user, d.users.get? row.userId = some user → user.isActive = false

/-- No active user has this password hash. -/
def Retired (d : Database) (hash : String) : Prop :=
  ∀ id user, d.users.get? id = some user → user.isActive = true → user.passwordHash ≠ hash

section
variable {S : Setting} {d d' : Database} {w : Write} {observedHash : String} {turn : Turn}
  {user' : AdminUser} {tokenHash hash i j adminId replacementHash : String} {reply : Reply}
    {s : IssuedSession}

theorem UsersMove.isActive_eq {hashes : List String} {users users' : Dict String AdminUser}
    (h : UsersMove hashes users users') {id : String} (hget : users'.get? id = some user') :
    ∃ user, users.get? id = some user ∧ user.isActive = user'.isActive := by
  have hid := h.activity id
  rw [hget, Option.map_some, eq_comm, Option.map_eq_some_iff] at hid
  exact hid

theorem Spent.moves (hspent : Spent d tokenHash) (h : Moves S w d d')
    (hfresh : tokenHash ∉ w.tokens.map S.tokenDigest) : Spent d' tokenHash := by
  intro id row' hrow' htoken
  rcases h.2.tokens id row' hrow' with hdrawn | ⟨row, hrow, hsame⟩
  · exact absurd (htoken ▸ hdrawn) hfresh
  · obtain ⟨row'', hrow'', huser, hrevoked, -⟩ := h.2.kept id row hrow
    cases hrow'.symm.trans hrow''
    refine (hspent id row hrow (hsame.trans htoken)).imp hrevoked ?_
    intro hinactive user' huser'
    obtain ⟨user, hget, hactive⟩ := h.1.isActive_eq (huser ▸ huser')
    exact hactive ▸ hinactive user hget

theorem Retired.moves (hretired : Retired d hash) (h : Moves S w d d') (hfresh : hash ∉ w.hashes) :
    Retired d' hash := by
  intro id user' huser' hactive' hhash
  rcases h.1.hashes id user' huser' with hnew | ⟨user, huser, hsame⟩
  · exact hfresh (hhash ▸ hnew)
  · obtain ⟨user'', huser'', hactive⟩ := h.1.isActive_eq huser'
    cases huser.symm.trans huser''
    exact hretired id user huser (hactive.trans hactive') (hsame.trans hhash)

/-- There is one active user at most. -/
theorem active_unique {user : AdminUser} (hi : d.users.get? i = some user)
    (hj : d.users.get? j = some user') (hui : user.isActive = true) (huj : user'.isActive = true) :
    i = j := by
  have hentries : (d.users.items.filter fun e => e.2.isActive).length ≤ 1 := by
    simpa [Dict.values, filter_map, Function.comp_def] using d.constraints.singleActive
  have hmi : (i, user) ∈ d.users.items.filter fun e => e.2.isActive :=
    mem_filter.mpr ⟨Dict.get?_eq_some_iff.mp hi, hui⟩
  have hmj : (j, user') ∈ d.users.items.filter fun e => e.2.isActive :=
    mem_filter.mpr ⟨Dict.get?_eq_some_iff.mp hj, huj⟩
  obtain ⟨e, he⟩ := length_eq_one_iff.mp (Nat.le_antisymm hentries (length_pos_of_mem hmi))
  rw [he, mem_singleton] at hmi hmj
  exact congrArg Prod.fst (hmi.trans hmj.symm)

/-- Two sessions do not share a token hash. -/
theorem token_unique {row row' : ControlPlaneSession} (hi : d.sessions.get? i = some row)
    (hj : d.sessions.get? j = some row') (h : row.tokenHash = row'.tokenHash) : i = j := by
  have hentries : (d.sessions.items.map fun e => e.2.tokenHash).Nodup := by
    simpa [Dict.values, Function.comp_def] using d.constraints.tokens
  exact congrArg Prod.fst (inj_on_of_nodup_map hentries (Dict.get?_eq_some_iff.mp hi)
    (Dict.get?_eq_some_iff.mp hj) h)

section
variable (h : (writeChangePassword d adminId observedHash replacementHash turn).1 = .ok reply)
include h

/-- What a password change that commits has done. -/
theorem of_writeChangePassword : ∃ admin, d.users.get? adminId = some admin ∧ admin.isActive = true ∧
      (writeChangePassword d adminId observedHash replacementHash turn).2.users = d.users.set adminId
        { admin with passwordHash := replacementHash, updatedAt := turn.now } ∧
      (writeChangePassword d adminId observedHash replacementHash turn).2.sessions =
        signOut d adminId turn.now := by
  unfold writeChangePassword at h ⊢
  split at h
  · cases h
  · next admin hadmin =>
    simp only [hadmin]
    split at h
    · cases h
    · next hc =>
      rw [if_neg hc]
      refine ⟨admin, rfl, ?_, (commit_eq_ok h).2⟩
      simpa using (not_or.mp hc).1

/-- A password change leaves every session dead, whatever its token. -/
theorem spent_of_changePassword (tokenHash : String) :
    Spent (writeChangePassword d adminId observedHash replacementHash turn).2 tokenHash := by
  obtain ⟨admin, hadmin, hactive, husers, hsessions⟩ := of_writeChangePassword h
  intro id row' hrow' _
  rw [hsessions, signOut, revokeAll, Dict.get?_updateKeys, Option.map_eq_some_iff] at hrow'
  obtain ⟨row, hrow, rfl⟩ := hrow'
  by_cases hin : id ∈ unrevoked d.sessions adminId
  · rw [if_pos hin]
    exact .inl rfl
  · rw [if_neg hin]
    by_cases hrevoked : row.revokedAt.isSome
    · exact .inl hrevoked
    -- the session is another user's, and that user cannot be active beside the administrator
    · have hother : row.userId ≠ adminId := by
        rintro rfl
        refine hin (mem_map_of_mem (mem_filter.mpr ⟨Dict.get?_eq_some_iff.mp hrow, ?_⟩))
        simpa using hrevoked
      refine .inr fun user huser => ?_
      rw [husers, Dict.get?_set_of_ne _ hother] at huser
      by_contra hne
      exact hother (active_unique huser hadmin (by simpa using hne) hactive)

/-- A password change retires every hash but the one it stores. -/
theorem retired_of_changePassword (hne : hash ≠ replacementHash) :
    Retired (writeChangePassword d adminId observedHash replacementHash turn).2 hash := by
  obtain ⟨admin, hadmin, hactive, husers, -⟩ := of_writeChangePassword h
  intro id user huser huactive
  rw [husers] at huser
  rcases Dict.of_get?_set huser with ⟨-, rfl⟩ | ⟨hid, huser⟩
  · exact hne.symm
  · exact absurd (active_unique huser hadmin huactive hactive) hid

end

/-- What a login that returns a session has found and done. -/
theorem of_writeLogin {userId encodedHash : String} {replacementHash : Option String} {r : Login}
    (h : (writeLogin S d userId encodedHash replacementHash r).1 = .ok (.issued s)) :
    s.token = r.token ∧ r.sessionId ∉ d.sessions ∧ ¬ Retired d encodedHash ∧
      (writeLogin S d userId encodedHash replacementHash r).2.sessions = issue S d r userId := by
  unfold writeLogin at h ⊢
  split at h
  · cases h
  · next user huser =>
    split at h
    · cases h
    · next hc =>
      rw [if_neg hc]
      split at h
      · cases h
      · next hid =>
        rw [if_neg hid]
        simp only [afterwards] at h ⊢
        split at h
        · obtain ⟨hs, -, hsessions⟩ := commit_eq_ok h
          cases hs
          refine ⟨rfl, hid, fun hretired => ?_, hsessions⟩
          rw [not_or, not_not, Bool.not_eq_false] at hc
          exact hretired userId user huser hc.1 hc.2
        · cases h

/-- What a reauthentication that returns a session has found and done. -/
theorem of_writeReauthenticate {r : Reauthentication}
    (h : (writeReauthenticate S d observedHash r).1 = .ok (.issued s)) :
    ∃ stored, d.sessions.get? r.authenticated.sessionId = some stored ∧
      stored.authEpoch = r.authenticated.authEpoch ∧ S.tokenDigest s.token ≠ stored.tokenHash ∧
      s.token ∈ r.candidates.take 4 ∧ ¬ Retired d observedHash ∧
      (writeReauthenticate S d observedHash r).2.sessions = d.sessions.set r.authenticated.sessionId
        (stored.rotate S r.authenticated.sessionId s.token r.turn.now) := by
  unfold writeReauthenticate at h ⊢
  split at h
  · cases h
  · next hahead =>
    rw [if_neg hahead]
    split at h
    · cases h
    · next stored user hcontext =>
      obtain ⟨hstored, huser, -, -, hepoch⟩ := of_context hcontext
      split at h
      · cases h
      · next hc =>
        rw [if_neg hc]
        unfold rotate at h ⊢
        split at h
        · cases h
        · next token htoken =>
          split at h
          · cases h
          · next hempty =>
            rw [if_neg hempty]
            obtain ⟨hs, -, hsessions⟩ := commit_eq_ok h
            cases hs
            obtain ⟨hdrawn, hnew⟩ := of_freshToken htoken
            refine ⟨stored, hstored, hepoch, hnew, hdrawn, fun hretired => ?_, hsessions⟩
            rw [not_or, not_not, Bool.not_eq_false] at hc
            exact hretired _ user huser hc.1 hc.2

/-- What `authenticate` accepts is not spent. -/
theorem not_spent_of_writeAuthenticate {a : AuthenticatedSession}
    (h : (writeAuthenticate S d tokenHash turn).1 = .ok (.authenticated a)) : ¬ Spent d tokenHash := by
  unfold writeAuthenticate at h
  split at h
  · cases h
  · next id row user haccepted =>
    obtain ⟨hrow, htoken, huser, hopen, hactive⟩ := of_accepted haccepted
    intro hspent
    rcases hspent id row hrow htoken with hrevoked | hinactive
    · simp [ControlPlaneSession.isOpen, Option.isNone_iff_eq_none] at hopen
      simp [hopen] at hrevoked
    · simp [hinactive user huser] at hactive

end

/-! ## The limit on sessions -/

/-- The sessions of a user that are neither revoked nor expired at a time. -/
def openSessions (d : Database) (userId : String) (now : ℕ) : List (String × ControlPlaneSession) :=
  d.sessions.items.filter fun e => e.2.userId = userId && e.2.isOpen now

theorem isOpen_mono {row : ControlPlaneSession} (hle : now ≤ t) (h : row.isOpen t = true) :
    row.isOpen now = true := by
  simp only [ControlPlaneSession.isOpen, Bool.and_eq_true, decide_eq_true_eq] at h ⊢
  exact ⟨⟨h.1.1, by omega⟩, by omega⟩

/-- Leaving out the first `n` entries and all with their keys leaves no more than the rest. -/
theorem length_filter_not_mem_take {β : Type} (l : List (String × β)) (n : ℕ) :
    (l.filter fun e => e.1 ∉ (l.take n).map Prod.fst).length ≤ l.length - n := by
  have hfront : (l.take n).filter (fun e => e.1 ∉ (l.take n).map Prod.fst) = [] := by
    rw [filter_eq_nil_iff]
    intro e he
    simpa using mem_map_of_mem he
  calc (l.filter fun e => e.1 ∉ (l.take n).map Prod.fst).length
      = ((l.take n ++ l.drop n).filter fun e => e.1 ∉ (l.take n).map Prod.fst).length := by
        rw [take_append_drop]
    _ = ((l.drop n).filter fun e => e.1 ∉ (l.take n).map Prod.fst).length := by
        rw [filter_append, hfront, nil_append]
    _ ≤ (l.drop n).length := length_filter_le ..
    _ = l.length - n := length_drop

/-- Of the sessions open before, `issue` leaves room for one. -/
theorem length_open_revokeAll (S : Setting) (sessions : Dict String ControlPlaneSession)
    (userId : String) (hle : now ≤ t) :
    ((revokeAll sessions (evicted S sessions userId now) now).items.filter fun e =>
      e.2.userId = userId && e.2.isOpen t).length + 1 ≤ S.maxActiveSessions := by
  set active := activeSessions sessions userId now with hactive
  set n := active.length + 1 - S.maxActiveSessions with hn
  have hkept : ((revokeAll sessions (evicted S sessions userId now) now).items.filter fun e =>
      e.2.userId = userId && e.2.isOpen t).length ≤
        (active.filter fun e => e.1 ∉ (active.take n).map Prod.fst).length := by
    rw [hactive, activeSessions, ((perm_insertionSort _ _).filter _).length_eq,
      filter_filter, revokeAll, Dict.updateKeys, filter_map, length_map]
    refine (monotone_filter_right _ fun e he => ?_).length_le
    simp only [Function.comp_apply, Bool.and_eq_true, decide_eq_true_eq] at he ⊢
    split at he
    · simp [ControlPlaneSession.isOpen, ControlPlaneSession.revoke] at he
    · next hin => exact ⟨hin, he.1, isOpen_mono hle he.2⟩
  have hrest := hkept.trans (length_filter_not_mem_take active n)
  have hpos := S.maxActiveSessions_pos
  omega

/-- A login leaves its user with no more sessions than the setting allows. -/
theorem length_openSessions_login {S : Setting} {d : Database} {userId encodedHash : String}
    {replacementHash : Option String} {r : Login} {s : IssuedSession} (hle : r.turn.now ≤ t)
    (h : (writeLogin S d userId encodedHash replacementHash r).1 = .ok (.issued s)) :
    (openSessions (writeLogin S d userId encodedHash replacementHash r).2 userId t).length ≤
      S.maxActiveSessions := by
  obtain ⟨-, hid, -, hsessions⟩ := of_writeLogin h
  have habsent : r.sessionId ∉ revokeAll d.sessions (evicted S d.sessions userId r.turn.now) r.turn.now := by
    rw [Dict.not_mem_iff] at hid ⊢
    rw [revokeAll, Dict.get?_updateKeys, hid, Option.map_none]
  rw [openSessions, hsessions, issue, Dict.items_set_of_not_mem habsent, filter_append, length_append]
  have hnew := length_filter_le (fun e : String × ControlPlaneSession =>
    e.2.userId = userId && e.2.isOpen t) [(r.sessionId, r.row S userId)]
  have hold := length_open_revokeAll S d.sessions userId hle
  rw [length_singleton] at hnew
  omega

/-! ## Every interleaving -/

/-- The tables are changed by the three services alone. -/
def unchanged (_ : Database) (o : Empty) : Database := o.elim

section
variable (S : Setting) (d : Database) (events : List (Event Call Empty))

/-- The services after the first `i` events of a run on `d`. -/
def after (i : ℕ) : World Database Call Write Answer :=
  stateAt ((accounts S).step unchanged) ⟨d, [], []⟩ events i

/-- The call whose `BEGIN IMMEDIATE` transaction is event `k`, with that transaction. -/
def executed (k : ℕ) : Option (Call × Write) :=
  events[k]?.bind ((accounts S).executing (after S d events k))

/-- Event `k` is the transaction `w` of the call `c`, and the call returns `reply`. -/
def Returns (k : ℕ) (c : Call) (w : Write) (reply : Reply) : Prop :=
  executed S d events k = some (c, w) ∧ (write S (after S d events k).db w).1 = .ok reply

/-- Event `k` is a call of `authenticate` that accepts the token. -/
def Authenticates (k : ℕ) (rawToken : String) : Prop :=
  ∃ turn w a, Returns S d events k (.authenticate (some rawToken) turn) w (.authenticated a)

/-- Drawn tokens and fresh password hashes are new: their digests and they themselves differ from
all that have been stored before. -/
def Distinct : Prop :=
  ∀ k < events.length, ∀ e ∈ executed S d events k, ∀ i ≤ k,
    (∀ token ∈ e.2.tokens, ∀ row ∈ (after S d events i).db.sessions.values,
      row.tokenHash ≠ S.tokenDigest token) ∧
    ∀ hash ∈ e.2.hashes, ∀ user ∈ (after S d events i).db.users.values, user.passwordHash ≠ hash

instance : Decidable (Distinct S d events) := by unfold Distinct; infer_instance

/-- What holds of a run of the services. -/
structure Rotates : Prop where
  /-- After a password change no token of a session that was there before authenticates. -/
  changed {i j m : ℕ} {c : Call} {adminId observedHash replacementHash id rawToken : String}
      {turn : Turn} {reply : Reply} {row : ControlPlaneSession} :
      Returns S d events j c (.changePassword adminId observedHash replacementHash turn) reply →
      i ≤ j → (after S d events i).db.sessions.get? id = some row →
      row.tokenHash = S.tokenDigest rawToken → j < m → ¬ Authenticates S d events m rawToken
  /-- Nor does a token that was returned, before or after the change, by a login or reauthentication
  that verified the password against a hash stored before the change. -/
  verified {i j k m : ℕ} {c c' : Call} {w : Write} {adminId observedHash replacementHash id : String}
      {turn : Turn} {reply : Reply} {user : AdminUser} {s : IssuedSession} :
      Returns S d events j c (.changePassword adminId observedHash replacementHash turn) reply →
      i ≤ j → (after S d events i).db.users.get? id = some user →
      Returns S d events k c' w (.issued s) → w.verified = some user.passwordHash → j < m →
      ¬ Authenticates S d events m s.token
  /-- Two reauthentications of one session at one auth epoch do not both succeed. -/
  once {k k' : ℕ} {c c' : Call} {hash hash' : String} {r r' : Reauthentication} {s s' : IssuedSession} :
      Returns S d events k c (.reauthenticate hash r) (.issued s) →
      Returns S d events k' c' (.reauthenticate hash' r') (.issued s') →
      r.authenticated.sessionId = r'.authenticated.sessionId →
      r.authenticated.authEpoch = r'.authenticated.authEpoch → k = k'
  /-- The token a reauthentication replaces never authenticates again. -/
  replaced {k m : ℕ} {c : Call} {hash rawToken : String} {r : Reauthentication} {s : IssuedSession}
      {row : ControlPlaneSession} :
      Returns S d events k c (.reauthenticate hash r) (.issued s) →
      (after S d events k).db.sessions.get? r.authenticated.sessionId = some row →
      row.tokenHash = S.tokenDigest rawToken → k < m → ¬ Authenticates S d events m rawToken
  /-- Right after a login its user has no more than `max_active_sessions` open sessions, at the time of
  the login and at any later time. -/
  limited {k t : ℕ} {c : Call} {userId encodedHash : String} {replacementHash : Option String}
      {r : Login} {s : IssuedSession} :
      Returns S d events k c (.login userId encodedHash replacementHash r) (.issued s) →
      r.turn.now ≤ t →
      (openSessions (after S d events (k + 1)).db userId t).length ≤ S.maxActiveSessions

end

section
variable {S : Setting} {d : Database} {events : List (Event Call Empty)}
variable {k j m : ℕ} {c : Call} {id : String} {row : ControlPlaneSession}
variable {w : Write} {i : ℕ} {rawToken hash : String} {s : IssuedSession} {r : Reauthentication}

theorem lt_length_of_executed {e : Call × Write} (h : executed S d events k = some e) :
    k < events.length := by
  obtain ⟨_, he, -⟩ := Option.bind_eq_some_iff.mp h
  exact (List.getElem?_eq_some_iff.mp he).1

theorem db_of_executed (h : executed S d events k = some (c, w)) :
    (after S d events (k + 1)).db = (write S (after S d events k).db w).2 := by
  obtain ⟨e, he, hexec⟩ := Option.bind_eq_some_iff.mp h
  rw [after, stateAt_succ he]
  exact Service.step_db_of_executing hexec

/-- A waiting call is not one transaction. -/
theorem isAtomic_of_waiting (k : ℕ) : True ∧ ∀ e ∈ (after S d events k).waiting, e.1.isAtomic = false :=
  invariant_stateAt
    (I := fun w : World Database Call Write Answer => True ∧ ∀ e ∈ w.waiting, e.1.isAtomic = false)
    ⟨trivial, by simp⟩
    (fun _ e hw => Service.invariant_world (S := accounts S) (I := fun _ => True)
      (W := fun c _ => c.isAtomic = false) (fun _ _ _ _ ha _ => ha) (fun _ _ _ _ _ _ => trivial)
      (fun _ _ _ _ _ => trivial) (fun _ _ _ => trivial) hw e) k

/-- A call that is one transaction writes what it reads in that event. -/
theorem read_of_executed (h : executed S d events k = some (c, w)) (hc : c.isAtomic = true) :
    read S (after S d events k).db c = .ok w := by
  obtain ⟨e, -, hexec⟩ := Option.bind_eq_some_iff.mp h
  cases e with
  | call c' =>
    simp only [Service.executing] at hexec
    split at hexec
    · obtain ⟨w', hw', heq⟩ := Option.map_eq_some_iff.mp hexec
      cases heq
      cases hr : (accounts S).read (after S d events k).db c with
      | error a => rw [hr] at hw'; cases hw'
      | ok r => rw [hr] at hw'; cases hw'; exact hr
    · cases hexec
  | write i =>
    have hlate := (isAtomic_of_waiting k).2 _ (mem_of_getElem? hexec)
    rw [hc] at hlate
    cases hlate
  | outside o => exact o.elim

theorem db_of_idle (h : executed S d events k = none) :
    (after S d events (k + 1)).db = (after S d events k).db := by
  cases he : events[k]? with
  | none => rw [after, stateAt_of_none he, after]
  | some e =>
    rw [executed, he, Option.bind_some] at h
    rw [after, stateAt_succ he]
    exact Service.step_db_of_idle h

/-- What transactions keep as long as they draw and store nothing old, a run keeps. -/
theorem persists {P : Database → Prop} (hjm : j ≤ m)
    (hstep : ∀ k c w, j ≤ k → executed S d events k = some (c, w) → P (after S d events k).db →
      P (write S (after S d events k).db w).2)
    (h : P (after S d events j).db) : P (after S d events m).db := by
  induction m, hjm using Nat.le_induction with
  | base => exact h
  | succ k hjk ih =>
    cases he : executed S d events k with
    | none => rw [db_of_idle he]; exact ih
    | some e =>
      rw [db_of_executed he]
      exact hstep k e.1 e.2 hjk he ih

/-- A stored token hash that is spent stays spent. -/
theorem Spent.persists (hdistinct : Distinct S d events) (hij : i ≤ j)
    (hrow : (after S d events i).db.sessions.get? id = some row) (hjm : j ≤ m)
    (h : Spent (after S d events j).db row.tokenHash) : Spent (after S d events m).db row.tokenHash := by
  refine Auth.persists (P := fun db => Spent db row.tokenHash) hjm ?_ h
  intro k c w hjk he hspent
  refine hspent.moves (moves_write w) fun hdrawn => ?_
  obtain ⟨token, htoken, heq⟩ := mem_map.mp hdrawn
  exact (hdistinct k (lt_length_of_executed he) (c, w) he i (hij.trans hjk)).1 token htoken row
    (Dict.mem_values_iff.mpr ⟨id, hrow⟩) heq.symm

/-- A stored password hash that is retired stays retired. -/
theorem Retired.persists (hdistinct : Distinct S d events) {user : AdminUser} (hij : i ≤ j)
    (huser : (after S d events i).db.users.get? id = some user) (hjm : j ≤ m)
    (h : Retired (after S d events j).db user.passwordHash) :
    Retired (after S d events m).db user.passwordHash := by
  refine Auth.persists (P := fun db => Retired db user.passwordHash) hjm ?_ h
  intro k c w hjk he hretired
  refine hretired.moves (moves_write w) fun hnew => ?_
  exact (hdistinct k (lt_length_of_executed he) (c, w) he i (hij.trans hjk)).2 _ hnew user
    (Dict.mem_values_iff.mpr ⟨id, huser⟩) rfl

/-- A session stays, and its auth epoch never goes back. -/
theorem authEpoch_le (hjm : j ≤ m) (hrow : (after S d events j).db.sessions.get? id = some row) :
    ∃ row', (after S d events m).db.sessions.get? id = some row' ∧ row.authEpoch ≤ row'.authEpoch := by
  refine persists (P := fun d => ∃ row', d.sessions.get? id = some row' ∧ row.authEpoch ≤ row'.authEpoch)
    hjm ?_ ⟨row, hrow, le_rfl⟩
  rintro k c w - - ⟨row', hrow', hle⟩
  obtain ⟨row'', hrow'', -, -, hle'⟩ := (moves_write w).2.kept id row' hrow'
  exact ⟨row'', hrow'', hle.trans hle'⟩

theorem not_spent_of_authenticates (h : Authenticates S d events m rawToken) :
    ¬ Spent (after S d events m).db (S.tokenDigest rawToken) := by
  obtain ⟨turn, w, a, he, hreply⟩ := h
  have hread := read_of_executed he rfl
  simp only [read, bind_eq_ok_iff, throw_or_eq_ok_iff, orRaise_eq_ok_iff, pure_eq_ok_iff,
    Option.some.injEq] at hread
  obtain ⟨token, rfl, -, rfl⟩ := hread
  exact not_spent_of_writeAuthenticate hreply

/-- A login or reauthentication that returns a session has verified its password against a hash that
is still in use, and the token it returns is a session's. -/
theorem of_issued (h : Returns S d events k c w (.issued s)) (hw : w.verified = some hash) :
    ¬ Retired (after S d events k).db hash ∧
      ∃ id row, (after S d events (k + 1)).db.sessions.get? id = some row ∧
        row.tokenHash = S.tokenDigest s.token := by
  obtain ⟨he, hreply⟩ := h
  rw [db_of_executed he]
  cases w with
  | login userId encodedHash replacementHash r =>
    cases hw
    obtain ⟨htoken, -, hinUse, hsessions⟩ := of_writeLogin hreply
    refine ⟨hinUse, r.sessionId, r.row S userId, ?_, by rw [htoken]; rfl⟩
    rw [write, hsessions, issue, Dict.get?_set_self]
  | reauthenticate observedHash r =>
    cases hw
    obtain ⟨stored, -, -, -, -, hinUse, hsessions⟩ := of_writeReauthenticate hreply
    refine ⟨hinUse, r.authenticated.sessionId,
      stored.rotate S r.authenticated.sessionId s.token r.turn.now, ?_, rfl⟩
    rw [write, hsessions, Dict.get?_set_self]
  | authenticate | revoke | changePassword | revokeSessions => cases hw

/-- After a password change, no token stored before it is accepted any more. -/
theorem not_authenticates_of_changed (hdistinct : Distinct S d events)
    {adminId observedHash replacementHash : String} {turn : Turn} {reply : Reply}
    (hchange : Returns S d events j c (.changePassword adminId observedHash replacementHash turn) reply)
    (hij : i ≤ j) (hrow : (after S d events i).db.sessions.get? id = some row)
    (htoken : row.tokenHash = S.tokenDigest rawToken) (hjm : j < m) :
    ¬ Authenticates S d events m rawToken := by
  intro h
  have hspent : Spent (after S d events (j + 1)).db row.tokenHash := by
    rw [db_of_executed hchange.1]
    exact spent_of_changePassword hchange.2 row.tokenHash
  refine not_spent_of_authenticates h ?_
  rw [← htoken]
  exact hspent.persists hdistinct (hij.trans (Nat.le_succ j)) hrow hjm

/-- Of two reauthentications of one session the later one finds a later auth epoch. -/
theorem authEpoch_lt_of_issued {k' : ℕ} {c' : Call} {hash' : String} {r' : Reauthentication}
    {s' : IssuedSession} (h : Returns S d events k c (.reauthenticate hash r) (.issued s))
    (h' : Returns S d events k' c' (.reauthenticate hash' r') (.issued s'))
    (hid : r.authenticated.sessionId = r'.authenticated.sessionId) (hlt : k < k') :
    r.authenticated.authEpoch < r'.authenticated.authEpoch := by
  obtain ⟨stored, -, hepoch, -, -, -, hsessions⟩ := of_writeReauthenticate h.2
  obtain ⟨stored', hstored', hepoch', -⟩ := of_writeReauthenticate h'.2
  have hrow : (after S d events (k + 1)).db.sessions.get? r.authenticated.sessionId =
      some (stored.rotate S r.authenticated.sessionId s.token r.turn.now) := by
    rw [db_of_executed h.1, write, hsessions, Dict.get?_set_self]
  obtain ⟨row', hrow', hle⟩ := authEpoch_le hlt hrow
  rw [hid, hstored'] at hrow'
  cases hrow'
  rw [← hepoch, ← hepoch']
  exact hle

/-- The token a reauthentication replaces is no session's any more. -/
theorem spent_of_replaced (h : Returns S d events k c (.reauthenticate hash r) (.issued s))
    (hrow : (after S d events k).db.sessions.get? r.authenticated.sessionId = some row) :
    Spent (after S d events (k + 1)).db row.tokenHash := by
  obtain ⟨stored, hstored, -, hnew, -, -, hsessions⟩ := of_writeReauthenticate h.2
  cases hrow.symm.trans hstored
  rw [db_of_executed h.1]
  intro id row' hrow' htoken
  rw [write, hsessions] at hrow'
  rcases Dict.of_get?_set hrow' with ⟨-, rfl⟩ | ⟨hid, hrow'⟩
  · exact absurd htoken hnew
  · exact absurd (token_unique hrow' hrow htoken) hid

/-- In every interleaving, old credentials are dead: those of before a password change, those a
reauthentication has replaced, and those beyond the limit. -/
theorem credentials_rotate (hdistinct : Distinct S d events) : Rotates S d events where
  changed := not_authenticates_of_changed hdistinct
  verified {i j k m c c' w adminId observedHash replacementHash id turn reply user s} hchange hij huser
      hissued hverified hjm := by
    obtain ⟨hinUse, id', row, hrow, htoken⟩ := of_issued hissued hverified
    -- the token was returned before the change, or the hash was out of use when it was compared
    rcases Nat.lt_trichotomy k j with hkj | rfl | hjk
    · exact not_authenticates_of_changed hdistinct hchange hkj hrow htoken hjm
    · cases hissued.1.symm.trans hchange.1
      cases hverified
    · refine absurd ?_ hinUse
      refine Retired.persists hdistinct (hij.trans (Nat.le_succ j)) huser hjk ?_
      rw [db_of_executed hchange.1]
      refine retired_of_changePassword hchange.2 ?_
      exact (hdistinct j (lt_length_of_executed hchange.1) _ hchange.1 i hij).2 _
        (mem_singleton_self _) user (Dict.mem_values_iff.mpr ⟨id, huser⟩)
  once {k k' c c' hash hash' r r' s s'} h h' hid hepoch := by
    rcases Nat.lt_trichotomy k k' with hlt | heq | hlt
    · exact absurd hepoch (authEpoch_lt_of_issued h h' hid hlt).ne
    · exact heq
    · exact absurd hepoch (authEpoch_lt_of_issued h' h hid.symm hlt).ne'
  replaced {k m c hash rawToken r s row} h hrow htoken hkm := by
    intro hauth
    refine not_spent_of_authenticates hauth ?_
    rw [← htoken]
    exact (spent_of_replaced h hrow).persists hdistinct (Nat.le_succ k) hrow hkm
  limited {k t c userId encodedHash replacementHash r s} h hle := by
    rw [db_of_executed h.1]
    exact length_openSessions_login hle h.2

end

/-- A setting under which digests and hashes are what they are made of. -/
def plainSetting : Setting where
  sessionTtl := 300
  sessionIdleTtl := 60
  maxActiveSessions := 1
  maxActiveSessions_pos := le_rfl
  keyedDigest _ value := value
  deriveCsrfToken sessionId _ := sessionId
  verify encodedHash password := encodedHash = password
  needsRehash _ := false
  dummyHash := ""
  normalizeUsername := some

/-- An administrator with one session. -/
def oneSession : Database where
  users := .set .empty "adm" ⟨"root", "root", "old", true, 0, none⟩
  sessions := .set .empty "ses" ⟨"adm", "first", "", 0, 0, 1, 0, 1000, 1000, none, none⟩
  constraints := by decide

/-- A reauthentication and a password change overtake a login that has verified the old hash. -/
def overtakenLogin : List (Event Call Empty) :=
  [.call (.login ⟨"root", "old", none, .allowed, none, "late", "ses2", ⟨5, true⟩, true, true⟩),
    .call (.changePassword "old" (some "new") ⟨4, true⟩),
    .call (.reauthenticate ⟨⟨"ses", "adm", "root", 1000, 0, 1, "ses"⟩, "old", .allowed, ⟨2, true⟩,
      ["second"], ⟨3, true⟩, true⟩),
    .write 2, .write 1, .write 0, .call (.authenticate (some "second") ⟨6, true⟩)]

theorem credentials_rotate_overtakenLogin : Distinct plainSetting oneSession overtakenLogin ∧
      Rotates plainSetting oneSession overtakenLogin :=
  ⟨by decide, credentials_rotate (by decide)⟩

end AgentBox.Auth
