import Mathlib.Logic.Function.Basic

/-!
# Connections: the session store

The part of `AuthStore` that binds a module instance to a socket.  A session is
keyed by its instance uuid and stamped with the token of the socket that owns
it, so that the cleanup of an older socket can tell that it has lost it.
-/

namespace CockatielEngine

/-- The fields of a session that its binding depends on. -/
structure AuthSession where
  moduleName : String
  authenticated : Bool
  shutdownAt : Option Nat
  socketToken : Nat
deriving DecidableEq, Repr

/-- The sessions by instance uuid. -/
abbrev AuthStore := String → Option AuthSession

namespace AuthStore

def insert (sessions : AuthStore) (instanceUuid7 : String)
    (session : AuthSession) : AuthStore :=
  Function.update sessions instanceUuid7 (some session)

def isAuthenticated (sessions : AuthStore) (instanceUuid7 : String) : Bool :=
  ((sessions instanceUuid7).map (·.authenticated)).getD false

/-- Bind a session to a new socket; a session that is gone stays gone. -/
def claimSocket (sessions : AuthStore) (instanceUuid7 : String)
    (socketToken : Nat) : AuthStore :=
  Function.update sessions instanceUuid7
    ((sessions instanceUuid7).map fun s =>
      { s with socketToken := socketToken, shutdownAt := none })

/-- The session is bound to the socket. -/
def isBoundTo (sessions : AuthStore) (instanceUuid7 : String)
    (socketToken : Nat) : Bool :=
  ((sessions instanceUuid7).map fun s =>
    decide (s.socketToken = socketToken)).getD false

/-- Remove the session only if it is still bound to the socket. -/
def removeIfSocket (sessions : AuthStore) (instanceUuid7 : String)
    (socketToken : Nat) : AuthStore × Bool :=
  if sessions.isBoundTo instanceUuid7 socketToken then
    (Function.update sessions instanceUuid7 none, true)
  else (sessions, false)

def setShutdownIfSocket (sessions : AuthStore) (instanceUuid7 : String)
    (timestamp socketToken : Nat) : AuthStore :=
  Function.update sessions instanceUuid7
    ((sessions instanceUuid7).map fun s =>
      if s.socketToken = socketToken then
        { s with shutdownAt := some timestamp }
      else s)

/-- Drop the sessions that were shut down for longer than `maxAge`. -/
def sweepShutdownSessions (sessions : AuthStore) (now maxAge : Nat) :
    AuthStore := fun u =>
  (sessions u).filter fun s =>
    match s.shutdownAt with
    | some t => decide (now - t < maxAge)
    | none => true

/-- Drop every session of the name but that of `keepInstance`. -/
def removeOtherSessionsNamed (sessions : AuthStore)
    (moduleName keepInstance : String) : AuthStore := fun u =>
  (sessions u).filter fun s =>
    !(decide (s.moduleName = moduleName) && decide (u ≠ keepInstance))

section Lookups

variable {sessions : AuthStore} {u v : String} {k : Nat} {s : AuthSession}

@[simp] theorem insert_self : sessions.insert u s u = some s :=
  Function.update_self ..

theorem insert_of_ne (h : v ≠ u) : sessions.insert u s v = sessions v :=
  Function.update_of_ne h ..

theorem claimSocket_self :
    sessions.claimSocket u k u =
      (sessions u).map fun s => { s with socketToken := k, shutdownAt := none } :=
  Function.update_self ..

theorem claimSocket_of_ne (h : v ≠ u) :
    sessions.claimSocket u k v = sessions v :=
  Function.update_of_ne h ..

theorem setShutdownIfSocket_of_ne {t : Nat} (h : v ≠ u) :
    sessions.setShutdownIfSocket u t k v = sessions v :=
  Function.update_of_ne h ..

theorem isBoundTo_iff :
    sessions.isBoundTo u k = true ↔
      ∃ s, sessions u = some s ∧ s.socketToken = k := by
  unfold isBoundTo
  cases sessions u <;> simp

/-- Removing by socket leaves the sessions of other sockets alone. -/
theorem removeIfSocket_of_bound
    (h : sessions v = some s)
    (hne : s.socketToken ≠ k) :
    (sessions.removeIfSocket u k).1 v = some s := by
  unfold removeIfSocket
  split
  · rename_i hbound
    by_cases hv : v = u
    · subst hv
      obtain ⟨s', hs', hk⟩ := isBoundTo_iff.mp hbound
      rw [h] at hs'
      obtain rfl := Option.some.inj hs'
      exact absurd hk hne
    · rw [← h]
      exact Function.update_of_ne hv ..
  · exact h

/-- What a removal leaves was there before. -/
theorem of_removeIfSocket
    (h : (sessions.removeIfSocket u k).1 v = some s) :
    sessions v = some s := by
  unfold removeIfSocket at h
  split at h
  · by_cases hv : v = u
    · subst hv
      simp at h
    · exact (Function.update_of_ne hv ..).symm.trans h
  · exact h

theorem removeOtherSessionsNamed_eq_some_iff {n keep : String} :
    sessions.removeOtherSessionsNamed n keep u = some s ↔
      sessions u = some s ∧ (s.moduleName = n → u = keep) := by
  simp only [removeOtherSessionsNamed, Option.filter_eq_some_iff]
  simp [← imp_iff_not_or]

theorem of_sweepShutdownSessions {now maxAge : Nat}
    (h : sessions.sweepShutdownSessions now maxAge u = some s) :
    sessions u = some s :=
  (Option.filter_eq_some_iff.mp h).1

/-- A session that is not shut down survives the sweep. -/
theorem sweepShutdownSessions_of_live {now maxAge : Nat}
    (h : sessions u = some s)
    (hlive : s.shutdownAt = none) :
    sessions.sweepShutdownSessions now maxAge u = some s := by
  simp [sweepShutdownSessions, h, hlive]

end Lookups

end AuthStore
end CockatielEngine
