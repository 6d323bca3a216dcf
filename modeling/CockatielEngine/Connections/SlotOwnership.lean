import CockatielEngine.Connections.Connection

/-!
# Connections: sessions, kill switches and routing slots over whole runs

The four tables are keyed by instance or by name, so a step of one connection
can hit the entry of another: a cleanup unregisters whatever kill switch its
instance has, a connect drops whatever session its name has.

**Main result.**  A run keeps every live connection's session and kill switch
and every live name's slot exactly when no step of it hits another live
connection.
-/

namespace CockatielEngine

open TaskPool

namespace ConnectionFrame

/-- The session has been inserted or claimed, and cleanup has not begun. -/
def authenticated : ConnectionFrame → Bool
  | .respond _ => true
  | .registerSender _ => true
  | .registerKill _ => true
  | .serve _ => true
  | _ => false

/-- The connection has been through the routing slot and is not over. -/
def routed : ConnectionFrame → Bool
  | .registerKill _ => true
  | .serve _ => true
  | _ => false

/-- The connection is in its read loop, its kill switch registered. -/
def serving : ConnectionFrame → Bool
  | .serve _ => true
  | _ => false

/-- The connection is over. -/
def closing : ConnectionFrame → Bool
  | .stopWriter _ => true
  | .unregisterKill _ => true
  | .shutdownSession _ => true
  | .removeSession _ => true
  | .unregisterSender _ _ => true
  | _ => false

end ConnectionFrame

section Defs

/-- The connection has not been closed, killed or taken over. -/
def Active (t : ConnectionTables) (c : Connection) : Prop :=
  t.closed c.socketToken = false ∧ t.killed c.socketToken = false ∧
    t.takenOver c.socketToken = false

instance (t : ConnectionTables) (c : Connection) : Decidable (Active t c) := by
  unfold Active
  infer_instance

/-- The session of the connection is bound to it. -/
def Bound (t : ConnectionTables) (c : Connection) : Prop :=
  ∃ s ∈ t.sessions c.instanceUuid7,
    s.socketToken = c.socketToken ∧ s.authenticated = true

instance (t : ConnectionTables) (c : Connection) : Decidable (Bound t c) :=
  inferInstanceAs (Decidable (∃ s ∈ t.sessions c.instanceUuid7, _))

/-- A connection that has been through the slot and is not over has this
token. -/
def Running (s : ConnectionPool) (k : Nat) : Prop :=
  ∃ f ∈ s.frames, f.routed = true ∧ f.token = k

/-- The slot of the name holds the sender of a connection that is not over. -/
def SlotLive (s : ConnectionPool) (name : String) : Prop :=
  ∃ k ∈ s.shared.moduleSenders name, s.shared.closed k = false ∧ Running s k

/-- Every live authenticated connection has its session and, once registered,
its kill switch, and the slot of its name holds a live sender. -/
structure KeepsConnections (s : ConnectionPool) : Prop where
  session : ∀ f ∈ s.frames, f.authenticated = true →
    Active s.shared f.connection → Bound s.shared f.connection
  switch : ∀ f ∈ s.frames, f.serving = true → Active s.shared f.connection →
    s.shared.killMap f.connection.instanceUuid7 = some f.token
  slot : ∀ f ∈ s.frames, f.routed = true → Active s.shared f.connection →
    SlotLive s f.connection.routeName

/-- No other live connection routes by the name. -/
def NobodyRoutes (s : ConnectionPool) (k : Nat) (name : String) : Prop :=
  ∀ f ∈ s.frames, f.routed = true → f.token ≠ k →
    Active s.shared f.connection → f.connection.routeName ≠ name

/-- No live connection has the instance's kill switch. -/
def NobodyServes (s : ConnectionPool) (instanceUuid7 : String) : Prop :=
  ∀ f ∈ s.frames, f.serving = true → Active s.shared f.connection →
    f.connection.instanceUuid7 ≠ instanceUuid7

/-- The read loop ends, or the writer exits. -/
def Received.ends (t : ConnectionTables) : Received → Bool
  | .container instanceUuid7 tokenValid =>
      !(tokenValid && t.sessions.isAuthenticated instanceUuid7)
  | _ => true

/-- The steps that hit no other live connection.

A connect drops no session of another live connection; a reconnect that comes
upon a session finds it bound to its own socket; a kill switch is registered or
unregistered only while no other live connection has the instance's; a slot is
freed, and the connection in it ends, only while no other live connection
routes by the name; and a shadow stands beside a connection that is not over. -/
def SparesOthers (s : ConnectionPool) (a : ConnectionAnswer) :
    ConnectionFrame → Prop
  | .dropOthers c _ =>
      ∀ f ∈ s.frames, f.authenticated = true → Active s.shared f.connection →
        f.connection.instanceUuid7 ≠ c.instanceUuid7 →
        ∀ session ∈ s.shared.sessions f.connection.instanceUuid7,
          session.moduleName ≠ c.moduleName
  | .rebuildSession c =>
      Active s.shared c → ∀ session ∈ s.shared.sessions c.instanceUuid7,
        session.socketToken = c.socketToken
  | .freeSlot c => NobodyRoutes s c.socketToken c.moduleName
  | .registerSender c =>
      Active s.shared c → s.shared.shadows c = true →
        ∀ k ∈ s.shared.moduleSenders c.routeName, Running s k
  | .registerKill c => NobodyServes s c.instanceUuid7
  | .serve c =>
      a.received.ends s.shared = true →
        ∀ f ∈ s.frames, f.routed = true → f.token ≠ c.socketToken →
          Active s.shared f.connection →
          s.shared.moduleSenders f.connection.routeName ≠ some c.socketToken
  | .unregisterKill c => NobodyServes s c.instanceUuid7
  | .unregisterSender c stillOwned =>
      stillOwned = true → s.shared.slotOwner c.routeName = some c.instanceUuid7 →
        NobodyRoutes s c.socketToken c.routeName
  | _ => True

instance (s : ConnectionPool) (a : ConnectionAnswer) (f : ConnectionFrame) :
    Decidable (SparesOthers s a f) := by
  unfold SparesOthers NobodyRoutes NobodyServes Running
  split <;> infer_instance

/-- The frame belongs to the connection of the token. -/
def ownsToken (k : Nat) (f : ConnectionFrame) : Nat :=
  if f.token = k then 1 else 0

/-- The invariant of a run: tokens are unique, and whatever carries the token of
a connection was put there by it. -/
structure Tracked (s : ConnectionPool) : Prop where
  tokens : ∀ k, s.total (ownsToken k) ≤ 1
  fresh : ∀ f ∈ s.frames, f.token < s.shared.nextSocketToken
  unopened : ∀ k, s.shared.nextSocketToken ≤ k → s.shared.closed k = false
  opened : ∀ f ∈ s.frames, f.serving = false → f.closing = false →
    s.shared.closed f.token = false
  senders : ∀ name, ∀ k ∈ s.shared.moduleSenders name,
    k < s.shared.nextSocketToken
  unrouted : ∀ f ∈ s.frames, f.routed = false → f.closing = false →
    ∀ name, s.shared.moduleSenders name ≠ some f.token
  stamped : ∀ u, ∀ session ∈ s.shared.sessions u,
    session.socketToken < s.shared.nextSocketToken ∧
      session.authenticated = true
  shut : ∀ u, ∀ session ∈ s.shared.sessions u, session.shutdownAt ≠ none →
    ∀ f ∈ s.frames, f.closing = false → f.token ≠ session.socketToken

end Defs

section Steps

variable {t : ConnectionTables} {a : ConnectionAnswer} {f : ConnectionFrame}
variable {o : Outcome ConnectionTables ConnectionFrame}

/-- A step leaves at most one frame, and that of its own connection. -/
theorem ConnectionFrame.new_cases
    (h : f.step t a = some o) :
    o.next ≠ none ∧ o.spawned = [] ∧
      (o.new = [] ∨ ∃ g, o.new = [g] ∧ g.token = f.token) := by
  have hnew {t' : ConnectionTables} {fs : List ConnectionFrame}
      (ho : Outcome.thenRun t' fs = o)
      (hfs : fs = [] ∨ ∃ g, fs = [g] ∧ g.token = f.token) :
      o.next ≠ none ∧ o.spawned = [] ∧
        (o.new = [] ∨ ∃ g, o.new = [g] ∧ g.token = f.token) := by
    subst ho
    exact ⟨by simp [Outcome.thenRun], rfl, by simpa using hfs⟩
  cases f with
  | incumbent c =>
      simp only [step] at h
      split at h <;> exact hnew (Option.some.inj h) (Or.inr ⟨_, rfl, rfl⟩)
  | dropOthers c reconnect =>
      refine hnew (Option.some.inj h) (Or.inr ?_)
      cases reconnect <;> exact ⟨_, rfl, rfl⟩
  | respond c =>
      simp only [step] at h
      split at h
      · exact hnew (Option.some.inj h) (Or.inr ⟨_, rfl, rfl⟩)
      · exact hnew (Option.some.inj h) (Or.inl rfl)
  | serve c =>
      simp only [step] at h
      cases hreceived : a.received with
      | container u valid =>
          rw [hreceived] at h
          refine hnew (Option.some.inj h) (Or.inr ?_)
          split <;> exact ⟨_, rfl, rfl⟩
      | hangup =>
          rw [hreceived] at h
          exact hnew (Option.some.inj h) (Or.inr ⟨_, rfl, rfl⟩)
      | killed =>
          rw [hreceived, serveStep] at h
          split at h
          · exact hnew (Option.some.inj h) (Or.inr ⟨_, rfl, rfl⟩)
          · cases h
      | writerExits =>
          rw [hreceived] at h
          exact hnew (Option.some.inj h) (Or.inr ⟨_, rfl, rfl⟩)
  | unregisterSender c owned => exact hnew (Option.some.inj h) (Or.inl rfl)
  | _ => exact hnew (Option.some.inj h) (Or.inr ⟨_, rfl, rfl⟩)

/-- The outcomes of one turn of the read loop. -/
theorem ConnectionFrame.serve_cases
    {c : Connection}
    (h : (serve c).step t a = some o) :
    (o = .thenRun t [.serve c] ∧ a.received.ends t = false) ∨
    (o = .thenRun t [.stopWriter c] ∧ a.received.ends t = true) ∨
    (o = .thenRun (t.close c.socketToken) [.serve c] ∧
      a.received.ends t = true) := by
  simp only [step] at h
  cases hreceived : a.received with
  | container u valid =>
      rw [hreceived] at h
      obtain rfl := Option.some.inj h
      cases hvalid : (valid && t.sessions.isAuthenticated u) with
      | true => exact Or.inl ⟨rfl, by simp [Received.ends, hvalid]⟩
      | false => exact Or.inr (Or.inl ⟨rfl, by simp [Received.ends, hvalid]⟩)
  | hangup =>
      rw [hreceived] at h
      exact Or.inr (Or.inl ⟨(Option.some.inj h).symm, rfl⟩)
  | killed =>
      rw [hreceived, serveStep] at h
      split at h
      · exact Or.inr (Or.inl ⟨(Option.some.inj h).symm, rfl⟩)
      · cases h
  | writerExits =>
      rw [hreceived] at h
      exact Or.inr (Or.inr ⟨(Option.some.inj h).symm, rfl⟩)

/-- What a step does to the tables. -/
def ConnectionFrame.effect (t : ConnectionTables) (a : ConnectionAnswer) :
    ConnectionFrame → ConnectionTables
  | .evict _ inc => t.throwKill inc
  | .freeSlot c => t.freeSlot c.moduleName
  | .dropOthers c _ =>
      { t with
        sessions := t.sessions.removeOtherSessionsNamed c.moduleName
          c.instanceUuid7 }
  | .insertSession c =>
      { t.noteTakeover c.instanceUuid7 c.socketToken with
        sessions := t.sessions.insert c.instanceUuid7
          (newSession c.moduleName c.socketToken) }
  | .claimSocket c =>
      { t.noteTakeover c.instanceUuid7 c.socketToken with
        sessions := t.sessions.claimSocket c.instanceUuid7 c.socketToken }
  | .rebuildSession c =>
      if t.sessions c.instanceUuid7 = none then
        { t with
          sessions := t.sessions.insert c.instanceUuid7
            (newSession c.moduleName c.socketToken) }
      else t
  | .respond c => if a.sent then t else t.close c.socketToken
  | .registerSender c => if t.shadows c then t else t.fillSlot c
  | .registerKill c =>
      { t with
        killMap := Function.update t.killMap c.instanceUuid7
          (some c.socketToken) }
  | .serve c =>
      if a.received = .writerExits then t.close c.socketToken else t
  | .stopWriter c => t.close c.socketToken
  | .unregisterKill c =>
      { t with killMap := Function.update t.killMap c.instanceUuid7 none }
  | .shutdownSession c =>
      { t with
        sessions := t.sessions.setShutdownIfSocket c.instanceUuid7 a.now
          c.socketToken }
  | .removeSession c =>
      { t with
        sessions :=
          (t.sessions.removeIfSocket c.instanceUuid7 c.socketToken).1 }
  | .unregisterSender c stillOwned =>
      if stillOwned && decide (t.slotOwner c.routeName = some c.instanceUuid7)
        then t.freeSlot c.routeName else t
  | .incumbent _ => t
  | .routeName _ => t

theorem ConnectionFrame.step_shared
    (h : f.step t a = some o) :
    o.shared = f.effect t a := by
  cases f with
  | serve c =>
      simp only [step] at h
      cases hreceived : a.received with
      | killed =>
          rw [hreceived, serveStep] at h
          split at h
          · obtain rfl := Option.some.inj h
            simp [effect, hreceived]
          · cases h
      | _ =>
          rw [hreceived] at h
          obtain rfl := Option.some.inj h
          simp [effect, hreceived]
  | incumbent c =>
      simp only [step] at h
      split at h <;> obtain rfl := Option.some.inj h <;> rfl
  | respond c =>
      simp only [step] at h
      split at h <;> obtain rfl := Option.some.inj h <;> simp_all [effect]
  | rebuildSession c =>
      obtain rfl := Option.some.inj h
      cases hs : t.sessions c.instanceUuid7 <;> simp [effect, hs]
  | _ =>
      obtain rfl := Option.some.inj h
      rfl

/-- No step moves the token counter. -/
theorem ConnectionFrame.effect_next :
    (f.effect t a).nextSocketToken = t.nextSocketToken := by
  cases f <;> simp only [effect]
  case evict c inc => rw [ConnectionTables.throwKill_eq]
  case insertSession c => rw [ConnectionTables.noteTakeover_eq]
  case claimSocket c => rw [ConnectionTables.noteTakeover_eq]
  all_goals
    repeat' split
    all_goals rfl

/-- A step closes no connection but its own. -/
theorem ConnectionFrame.effect_closed
    {k : Nat}
    (hne : k ≠ f.token) :
    (f.effect t a).closed k = t.closed k := by
  cases f <;> simp only [effect]
  case evict c inc => rw [ConnectionTables.throwKill_eq]
  case insertSession c => rw [ConnectionTables.noteTakeover_eq]
  case claimSocket c => rw [ConnectionTables.noteTakeover_eq]
  all_goals
    repeat' split
    all_goals
      first
        | rfl
        | exact Function.update_of_ne hne ..

/-- No step revives a connection. -/
theorem Active.of_effect
    {c : Connection}
    (h : Active (f.effect t a) c) :
    Active t c := by
  obtain ⟨hopen, hkilled, howner⟩ := h
  have hclose {c' : Connection}
      (hc : (t.close c'.socketToken).closed c.socketToken = false) :
      t.closed c.socketToken = false := by
    by_cases hk : c.socketToken = c'.socketToken
    · simp [ConnectionTables.close, hk] at hc
    · simpa [ConnectionTables.close, hk] using hc
  cases f <;> simp only [ConnectionFrame.effect] at hopen hkilled howner
  case evict c' inc =>
    rw [ConnectionTables.throwKill_eq] at hopen howner
    exact ⟨hopen, t.killed_of_throwKill inc hkilled, howner⟩
  case insertSession c' =>
    rw [ConnectionTables.noteTakeover_eq] at hopen hkilled
    exact ⟨hopen, hkilled, (t.takenOver_of_noteTakeover _ _ howner).1⟩
  case claimSocket c' =>
    rw [ConnectionTables.noteTakeover_eq] at hopen hkilled
    exact ⟨hopen, hkilled, (t.takenOver_of_noteTakeover _ _ howner).1⟩
  case stopWriter c' => exact ⟨hclose hopen, hkilled, howner⟩
  case respond c' =>
    split at hopen <;> simp_all only [if_true, if_false, Bool.false_eq_true]
    · exact ⟨hopen, hkilled, howner⟩
    · exact ⟨hclose hopen, hkilled, howner⟩
  case serve c' =>
    split at hopen <;> simp_all only [if_true, if_false]
    · exact ⟨hclose hopen, hkilled, howner⟩
    · exact ⟨hopen, hkilled, howner⟩
  all_goals
    first
      | exact ⟨hopen, hkilled, howner⟩
      | (split at hopen <;> simp_all only [if_true, if_false, Bool.false_eq_true] <;>
          exact ⟨hopen, hkilled, howner⟩)

/-- A session that is not dropped stays bound to the socket of another live
connection. -/
theorem Bound.of_effect
    {c : Connection}
    (h : Bound t c)
    (hne : c.socketToken ≠ f.token)
    (hactive : Active (f.effect t a) c)
    (hdrop : ∀ c' reconnect, f = .dropOthers c' reconnect →
      c.instanceUuid7 ≠ c'.instanceUuid7 →
      ∀ session ∈ t.sessions c.instanceUuid7,
        session.moduleName ≠ c'.moduleName) :
    Bound (f.effect t a) c := by
  obtain ⟨session, hsession, htoken, hauth⟩ := h
  have hsame {t' : ConnectionTables}
      (hs : t'.sessions c.instanceUuid7 = t.sessions c.instanceUuid7) :
      Bound t' c :=
    ⟨session, hs.trans hsession, htoken, hauth⟩
  have htaken {c' : Connection} (hc' : c.socketToken ≠ c'.socketToken)
      (hfree : (t.noteTakeover c'.instanceUuid7 c'.socketToken).takenOver
        c.socketToken = false) :
      c.instanceUuid7 ≠ c'.instanceUuid7 := by
    intro hu
    obtain ⟨-, howner⟩ := t.takenOver_of_noteTakeover _ _ hfree
    rw [← hu] at howner
    exact hc' (howner session hsession htoken)
  cases f with
  | evict c' inc => exact hsame (by rw [ConnectionFrame.effect, t.throwKill_eq])
  | dropOthers c' reconnect =>
      refine ⟨session, ?_, htoken, hauth⟩
      refine AuthStore.removeOtherSessionsNamed_eq_some_iff.mpr ⟨hsession, ?_⟩
      intro hname
      by_contra hu
      exact hdrop c' reconnect rfl hu session hsession hname
  | insertSession c' =>
      exact hsame (AuthStore.insert_of_ne (htaken hne hactive.2.2))
  | claimSocket c' =>
      exact hsame (AuthStore.claimSocket_of_ne (htaken hne hactive.2.2))
  | rebuildSession c' =>
      simp only [ConnectionFrame.effect]
      split
      · rename_i hnone
        refine hsame (AuthStore.insert_of_ne ?_)
        rintro hu
        rw [hu, hnone] at hsession
        cases hsession
      · exact hsame rfl
  | shutdownSession c' =>
      by_cases hu : c.instanceUuid7 = c'.instanceUuid7
      · refine ⟨session, ?_, htoken, hauth⟩
        have hother : session.socketToken ≠ c'.socketToken := htoken ▸ hne
        rw [Option.mem_def] at hsession ⊢
        rw [hu] at hsession ⊢
        simp [ConnectionFrame.effect, AuthStore.setShutdownIfSocket, hsession,
          hother]
      · exact hsame (AuthStore.setShutdownIfSocket_of_ne hu)
  | removeSession c' =>
      exact ⟨session, AuthStore.removeIfSocket_of_bound hsession
        (htoken ▸ hne), htoken, hauth⟩
  | _ =>
      simp only [ConnectionFrame.effect]
      repeat' split
      all_goals exact hsame rfl

/-- A kill switch stays registered until its instance registers or unregisters
one. -/
theorem ConnectionFrame.effect_killMap
    {u : String}
    (hregister : ∀ c, f = .registerKill c → c.instanceUuid7 ≠ u)
    (hunregister : ∀ c, f = .unregisterKill c → c.instanceUuid7 ≠ u) :
    (f.effect t a).killMap u = t.killMap u := by
  cases f with
  | evict c inc => rw [effect, t.throwKill_eq]
  | insertSession c =>
      simp only [effect]
      rw [t.noteTakeover_eq]
  | claimSocket c =>
      simp only [effect]
      rw [t.noteTakeover_eq]
  | registerKill c => exact Function.update_of_ne (hregister c rfl).symm ..
  | unregisterKill c => exact Function.update_of_ne (hunregister c rfl).symm ..
  | _ =>
      simp only [effect]
      repeat' split
      all_goals rfl

/-- The step frees the slot of the name. -/
def FreesSlot (t : ConnectionTables) (name : String) : ConnectionFrame → Prop
  | .freeSlot c => c.moduleName = name
  | .unregisterSender c stillOwned =>
      stillOwned = true ∧ t.slotOwner c.routeName = some c.instanceUuid7 ∧
        c.routeName = name
  | _ => False

/-- The slot of a name stays, is freed, or is filled with the sender of the
connection that ran. -/
theorem ConnectionFrame.effect_moduleSenders (name : String) :
    (f.effect t a).moduleSenders name = t.moduleSenders name ∨
    FreesSlot t name f ∧ (f.effect t a).moduleSenders name = none ∨
    (∃ c, f = .registerSender c ∧ c.routeName = name ∧ t.shadows c = false ∧
      (f.effect t a).moduleSenders name = some c.socketToken) := by
  cases f with
  | evict c inc =>
      left
      rw [effect, t.throwKill_eq]
  | insertSession c =>
      left
      simp only [effect]
      rw [t.noteTakeover_eq]
  | claimSocket c =>
      left
      simp only [effect]
      rw [t.noteTakeover_eq]
  | freeSlot c =>
      by_cases hname : name = c.moduleName
      · exact Or.inr (Or.inl ⟨hname.symm,
          by simp [effect, ConnectionTables.freeSlot, hname]⟩)
      · exact Or.inl (Function.update_of_ne hname ..)
  | unregisterSender c stillOwned =>
      simp only [effect]
      split
      · rename_i hown
        simp only [Bool.and_eq_true, decide_eq_true_eq] at hown
        by_cases hname : name = c.routeName
        · exact Or.inr (Or.inl ⟨⟨hown.1, hown.2, hname.symm⟩,
            by simp [ConnectionTables.freeSlot, hname]⟩)
        · exact Or.inl (Function.update_of_ne hname ..)
      · exact Or.inl rfl
  | registerSender c =>
      simp only [effect]
      split
      · exact Or.inl rfl
      · rename_i hshadow
        by_cases hname : name = c.routeName
        · exact Or.inr (Or.inr ⟨c, rfl, hname.symm, by simpa using hshadow,
            by simp [ConnectionTables.fillSlot, hname]⟩)
        · exact Or.inl (Function.update_of_ne hname ..)
  | _ =>
      left
      simp only [effect]
      repeat' split
      all_goals rfl

end Steps

section Successors

variable {t : ConnectionTables} {a : ConnectionAnswer}
variable {f g : ConnectionFrame} {o : Outcome ConnectionTables ConnectionFrame}

/-- What can follow a frame, as far as the properties tell frames apart. -/
inductive ConnectionFrame.Follows : ConnectionFrame → ConnectionFrame → Prop
  | opening {x y : ConnectionFrame} :
      x.authenticated = false → x.closing = false →
      y.authenticated = false → y.closing = false → Follows x y
  | inserted {c : Connection} : Follows (.insertSession c) (.respond c)
  | rebuilt {c : Connection} : Follows (.rebuildSession c) (.respond c)
  | responded {c : Connection} : Follows (.respond c) (.registerSender c)
  | registered {c : Connection} : Follows (.registerSender c) (.registerKill c)
  | armed {c : Connection} : Follows (.registerKill c) (.serve c)
  | served {c : Connection} : Follows (.serve c) (.serve c)
  | ended {x y : ConnectionFrame} : y.closing = true → Follows x y

theorem ConnectionFrame.follows
    (h : f.step t a = some o)
    (hg : g ∈ o.new) :
    Follows f g := by
  cases f with
  | incumbent c =>
      simp only [step] at h
      split at h <;> obtain rfl := Option.some.inj h
      all_goals
        obtain rfl : g = _ := by simpa using hg
        exact .opening rfl rfl rfl rfl
  | dropOthers c reconnect =>
      obtain rfl := Option.some.inj h
      cases reconnect <;>
        obtain rfl : g = _ := by simpa using hg
      all_goals exact .opening rfl rfl rfl rfl
  | insertSession c =>
      obtain rfl := Option.some.inj h
      obtain rfl : g = _ := by simpa using hg
      exact .inserted
  | rebuildSession c =>
      obtain rfl := Option.some.inj h
      obtain rfl : g = _ := by simpa using hg
      exact .rebuilt
  | respond c =>
      simp only [step] at h
      split at h <;> obtain rfl := Option.some.inj h
      · obtain rfl : g = _ := by simpa using hg
        exact .responded
      · simp at hg
  | registerSender c =>
      obtain rfl := Option.some.inj h
      obtain rfl : g = _ := by simpa using hg
      exact .registered
  | registerKill c =>
      obtain rfl := Option.some.inj h
      obtain rfl : g = _ := by simpa using hg
      exact .armed
  | serve c =>
      rcases serve_cases h with ⟨rfl, -⟩ | ⟨rfl, -⟩ | ⟨rfl, -⟩ <;>
        obtain rfl : g = _ := by simpa using hg
      · exact .served
      · exact .ended rfl
      · exact .served
  | unregisterSender c owned =>
      obtain rfl := Option.some.inj h
      simp at hg
  | _ =>
      obtain rfl := Option.some.inj h
      obtain rfl : g = _ := by simpa using hg
      first
        | exact .opening rfl rfl rfl rfl
        | exact .ended rfl

end Successors

section Invariant

variable {s : ConnectionPool} {i : Nat} {a : ConnectionAnswer}
variable {f : ConnectionFrame} {rest : List ConnectionFrame}
variable {o : Outcome ConnectionTables ConnectionFrame}

/-- The pool after task `i` has run. -/
abbrev afterStep (s : ConnectionPool) (i : Nat)
    (o : Outcome ConnectionTables ConnectionFrame)
    (rest : List ConnectionFrame) : ConnectionPool :=
  { shared := o.shared
    threads := s.threads.set i (connections.unwind o.next rest) ++ o.spawned }

@[simp] theorem ownsToken_self : ownsToken f.token f = 1 := if_pos rfl

theorem Tracked.eq_of_token
    (h : Tracked s) {g g' : ConnectionFrame}
    (hg : g ∈ s.frames) (hg' : g' ∈ s.frames)
    (htoken : g.token = g'.token) :
    g = g' := by
  by_contra hne
  have hle := add_le_total (ownsToken g.token) hg hg' hne
  have hone := h.tokens g.token
  simp only [ownsToken, htoken, if_true] at hle hone
  omega

/-- After a step a frame is new, or it belongs to another connection. -/
theorem Tracked.frames_after
    (h : Tracked s)
    (hi : s.threads[i]? = some (f :: rest))
    {g : ConnectionFrame}
    (hg : g ∈ (afterStep s i o rest).frames) :
    g ∈ o.new ∨ (g ∈ s.frames ∧ g.token ≠ f.token) := by
  rcases weight_after_run (ownsToken f.token) hi hg with hnew | ⟨hold, hweight⟩
  · exact Or.inl hnew
  · refine Or.inr ⟨hold, fun htoken => ?_⟩
    have hone := h.tokens f.token
    simp only [ownsToken, htoken, if_true] at hweight hone
    omega

/-- The frames of other connections are there after a step. -/
theorem mem_afterStep_of_ne
    (hi : s.threads[i]? = some (f :: rest))
    (hstep : f.step s.shared a = some o)
    {g : ConnectionFrame}
    (hg : g ∈ s.frames)
    (htoken : g.token ≠ f.token) :
    g ∈ (afterStep s i o rest).frames := by
  refine mem_frames_of_ne hi (ConnectionFrame.new_cases hstep).1 hg ?_
  rintro rfl
  exact htoken rfl

theorem token_of_new
    (hstep : f.step s.shared a = some o)
    {g : ConnectionFrame}
    (hg : g ∈ o.new) :
    g.token = f.token := by
  rcases (ConnectionFrame.new_cases hstep).2.2 with hnone | ⟨g', hnew, htoken⟩
  · simp [hnone] at hg
  · rw [hnew] at hg
    obtain rfl := List.mem_singleton.mp hg
    exact htoken

/-- A session after a step has the token of the connection that ran, or was
there with its token and its shutdown time. -/
theorem ConnectionFrame.effect_sessions
    {t : ConnectionTables} {u : String} {session : AuthSession}
    (h : session ∈ (f.effect t a).sessions u) :
    session ∈ t.sessions u ∨
    session.socketToken = f.token ∧
      (session.authenticated = true ∨
        ∃ old ∈ t.sessions u, session.authenticated = old.authenticated) ∧
      (session.shutdownAt ≠ none → f.closing = true) := by
  have hinsert {c : Connection} {v : String}
      (hs : session ∈ t.sessions.insert v (newSession c.moduleName c.socketToken) u) :
      session ∈ t.sessions u ∨
        session = newSession c.moduleName c.socketToken := by
    by_cases hu : u = v
    · subst hu
      exact Or.inr (by simpa [eq_comm] using hs)
    · exact Or.inl ((AuthStore.insert_of_ne hu).symm.trans hs)
  cases f with
  | evict c inc =>
      rw [effect, t.throwKill_eq] at h
      exact Or.inl h
  | dropOthers c reconnect =>
      exact Or.inl (AuthStore.removeOtherSessionsNamed_eq_some_iff.mp h).1
  | insertSession c =>
      rcases hinsert h with hold | rfl
      · exact Or.inl hold
      · exact Or.inr ⟨rfl, Or.inl rfl, by simp [newSession]⟩
  | claimSocket c =>
      by_cases hu : u = c.instanceUuid7
      · subst hu
        simp only [effect, AuthStore.claimSocket_self, Option.mem_def,
          Option.map_eq_some_iff] at h
        obtain ⟨old, hold, rfl⟩ := h
        exact Or.inr ⟨rfl, Or.inr ⟨old, hold, rfl⟩, by simp⟩
      · exact Or.inl ((AuthStore.claimSocket_of_ne hu).symm.trans h)
  | rebuildSession c =>
      simp only [effect] at h
      split at h
      · rcases hinsert h with hold | rfl
        · exact Or.inl hold
        · exact Or.inr ⟨rfl, Or.inl rfl, by simp [newSession]⟩
      · exact Or.inl h
  | shutdownSession c =>
      by_cases hu : u = c.instanceUuid7
      · subst hu
        simp only [effect, AuthStore.setShutdownIfSocket, Function.update_self,
          Option.mem_def, Option.map_eq_some_iff] at h
        obtain ⟨old, hold, rfl⟩ := h
        by_cases htoken : old.socketToken = c.socketToken
        · right
          simp only [htoken, if_true]
          exact ⟨rfl, Or.inr ⟨old, hold, rfl⟩, fun _ => rfl⟩
        · left
          simpa [htoken] using hold
      · exact Or.inl ((AuthStore.setShutdownIfSocket_of_ne hu).symm.trans h)
  | removeSession c => exact Or.inl (AuthStore.of_removeIfSocket h)
  | _ =>
      simp only [effect] at h
      left
      repeat' split at h
      all_goals exact h

/-- What follows a frame that is not over is not behind it. -/
theorem ConnectionFrame.Follows.opened
    {g : ConnectionFrame}
    (h : Follows f g)
    (hg : g.closing = false) :
    f.closing = false ∧ (g.serving = false → f.serving = false) ∧
      (g.routed = false → f.routed = false ∧ ∀ c, f ≠ .registerSender c) := by
  cases h with
  | ended hover => simp [hover] at hg
  | @opening _ _ hf hclose _ _ =>
      refine ⟨hclose, fun _ => ?_, fun _ => ⟨?_, ?_⟩⟩
      · cases f <;> first | rfl | simp [authenticated] at hf
      · cases f <;> first | rfl | simp [authenticated] at hf
      · rintro c rfl
        simp [authenticated] at hf
  | _ => simp_all [closing, serving, routed]

theorem Tracked.tokens_run
    (h : Tracked s)
    (hi : s.threads[i]? = some (f :: rest))
    (hstep : f.step s.shared a = some o)
    (k : Nat) :
    (afterStep s i o rest).total (ownsToken k) ≤ 1 := by
  have htotal := total_fire_run_le (P := connections) (ownsToken k) (o := o) hi
  have hone := h.tokens k
  have hnew : (o.new.map (ownsToken k)).sum ≤ ownsToken k f := by
    rcases (ConnectionFrame.new_cases hstep).2.2 with hnone | ⟨g, hg, htoken⟩
    · simp [hnone]
    · simp [hg, ownsToken, htoken]
  simp only [afterStep]
  omega

/-- A connection that goes on before its cleanup does not close. -/
theorem ConnectionFrame.effect_closed_of_opened
    {g : ConnectionFrame}
    (hstep : f.step s.shared a = some o)
    (hg : g ∈ o.new)
    (hopen : s.shared.closed f.token = false)
    (hserving : f.serving = false)
    (hclosing : f.closing = false) :
    (f.effect s.shared a).closed f.token = false := by
  cases f with
  | respond c =>
      cases hsent : a.sent with
      | true => simpa [ConnectionFrame.effect, hsent] using hopen
      | false =>
          simp only [ConnectionFrame.step, hsent] at hstep
          obtain rfl := Option.some.inj hstep
          simp at hg
  | serve c => cases hserving
  | stopWriter c => cases hclosing
  | evict c inc => rw [ConnectionFrame.effect, s.shared.throwKill_eq]; exact hopen
  | insertSession c =>
      simp only [ConnectionFrame.effect]
      rw [s.shared.noteTakeover_eq]
      exact hopen
  | claimSocket c =>
      simp only [ConnectionFrame.effect]
      rw [s.shared.noteTakeover_eq]
      exact hopen
  | _ =>
      simp only [ConnectionFrame.effect]
      repeat' split
      all_goals exact hopen

theorem Tracked.opened_run
    (h : Tracked s)
    (hi : s.threads[i]? = some (f :: rest))
    (hstep : f.step s.shared a = some o)
    {g : ConnectionFrame}
    (hg : g ∈ (afterStep s i o rest).frames)
    (hserving : g.serving = false)
    (hclosing : g.closing = false) :
    o.shared.closed g.token = false := by
  have hf := mem_frames_of_getElem? hi (List.mem_cons_self ..)
  rw [ConnectionFrame.step_shared hstep]
  rcases h.frames_after hi hg with hnew | ⟨hold, htoken⟩
  · obtain ⟨hclose, hserve, -⟩ := (ConnectionFrame.follows hstep hnew).opened hclosing
    rw [token_of_new hstep hnew]
    exact ConnectionFrame.effect_closed_of_opened hstep hnew
      (h.opened f hf (hserve hserving) hclose) (hserve hserving) hclose
  · rw [ConnectionFrame.effect_closed htoken]
    exact h.opened g hold hserving hclosing

/-- A slot is filled by the connection whose slot it is, when it registers. -/
theorem Tracked.unrouted_run
    (h : Tracked s)
    (hi : s.threads[i]? = some (f :: rest))
    (hstep : f.step s.shared a = some o)
    {g : ConnectionFrame}
    (hg : g ∈ (afterStep s i o rest).frames)
    (hrouted : g.routed = false)
    (hclosing : g.closing = false)
    (name : String) :
    o.shared.moduleSenders name ≠ some g.token := by
  have hf := mem_frames_of_getElem? hi (List.mem_cons_self ..)
  rw [ConnectionFrame.step_shared hstep]
  have hslots := ConnectionFrame.effect_moduleSenders (t := s.shared) (a := a) (f := f)
    name
  rcases h.frames_after hi hg with hnew | ⟨hold, htoken⟩
  · have hfollows := ConnectionFrame.follows hstep hnew
    obtain ⟨hclose, -, hroute⟩ := hfollows.opened hclosing
    obtain ⟨hunrouted, hne⟩ := hroute hrouted
    have hbefore := h.unrouted f hf hunrouted hclose name
    rw [token_of_new hstep hnew]
    rcases hslots with hsame | ⟨-, hnone⟩ | ⟨c, rfl, -⟩
    · rwa [hsame]
    · simp [hnone]
    · exact absurd rfl (hne c)
  · rcases hslots with hsame | ⟨-, hnone⟩ | ⟨c, rfl, -, -, hfilled⟩
    · rw [hsame]
      exact h.unrouted g hold hrouted hclosing name
    · simp [hnone]
    · rw [hfilled]
      exact fun heq => htoken (Option.some.inj heq).symm

/-- Only a cleanup shuts a session down, and only its own. -/
theorem Tracked.shut_run
    (h : Tracked s)
    (hi : s.threads[i]? = some (f :: rest))
    (hstep : f.step s.shared a = some o)
    {u : String} {session : AuthSession}
    (hs : session ∈ o.shared.sessions u)
    (hshut : session.shutdownAt ≠ none)
    {g : ConnectionFrame}
    (hg : g ∈ (afterStep s i o rest).frames)
    (hclosing : g.closing = false) :
    g.token ≠ session.socketToken := by
  have hf := mem_frames_of_getElem? hi (List.mem_cons_self ..)
  rw [ConnectionFrame.step_shared hstep] at hs
  rcases ConnectionFrame.effect_sessions hs with hold | ⟨htoken, -, hclose⟩
  · rcases h.frames_after hi hg with hnew | ⟨hmem, -⟩
    · have hfollows := ConnectionFrame.follows hstep hnew
      rw [token_of_new hstep hnew]
      exact h.shut u session hold hshut f hf (hfollows.opened hclosing).1
    · exact h.shut u session hold hshut g hmem hclosing
  · rcases h.frames_after hi hg with hnew | ⟨-, hother⟩
    · have hfollows := ConnectionFrame.follows hstep hnew
      simp [(hfollows.opened hclosing).1] at hclose
      exact absurd hclose hshut
    · rw [htoken]
      exact hother

theorem Tracked.run
    (h : Tracked s)
    (hi : s.threads[i]? = some (f :: rest))
    (hstep : f.step s.shared a = some o) :
    Tracked (afterStep s i o rest) := by
  have hf := mem_frames_of_getElem? hi (List.mem_cons_self ..)
  have heffect := ConnectionFrame.step_shared hstep
  have hnext : o.shared.nextSocketToken = s.shared.nextSocketToken := by
    rw [heffect, ConnectionFrame.effect_next]
  refine ⟨h.tokens_run hi hstep, fun g hg => ?_, fun k hk => ?_,
    fun g hg => h.opened_run hi hstep hg, fun name k hk => ?_,
    fun g hg => h.unrouted_run hi hstep hg, fun u session hs => ?_,
    fun u session hs hshut g hg => h.shut_run hi hstep hs hshut hg⟩
  · show g.token < o.shared.nextSocketToken
    rw [hnext]
    rcases h.frames_after hi hg with hnew | ⟨hold, -⟩
    · rw [token_of_new hstep hnew]
      exact h.fresh f hf
    · exact h.fresh g hold
  · show o.shared.closed k = false
    have hlt := h.fresh f hf
    simp only [hnext] at hk
    rw [heffect, ConnectionFrame.effect_closed (by omega)]
    exact h.unopened k hk
  · show k < o.shared.nextSocketToken
    rw [hnext]
    simp only [heffect] at hk
    rcases ConnectionFrame.effect_moduleSenders (t := s.shared) (a := a) (f := f) name
      with hsame | ⟨-, hnone⟩ | ⟨c, rfl, -, -, hfilled⟩
    · exact h.senders name k (hsame ▸ hk)
    · simp [hnone] at hk
    · rw [hfilled] at hk
      obtain rfl := Option.some.inj hk
      exact h.fresh _ hf
  · show session.socketToken < o.shared.nextSocketToken ∧ _
    rw [hnext]
    simp only [heffect] at hs
    rcases ConnectionFrame.effect_sessions hs with hold | ⟨htoken, hauth, -⟩
    · exact h.stamped u session hold
    · refine ⟨htoken ▸ h.fresh f hf, ?_⟩
      rcases hauth with hauth | ⟨old, hmem, hauth⟩
      · exact hauth
      · exact hauth.trans (h.stamped u old hmem).2

theorem mem_afterStep_of_new
    (hi : s.threads[i]? = some (f :: rest))
    {g : ConnectionFrame}
    (hg : g ∈ o.new) :
    g ∈ (afterStep s i o rest).frames :=
  mem_frames_of_new hi hg

/-- The live connections keep their sessions, and a new one gets its own. -/
theorem KeepsConnections.session_run
    (hkeeps : KeepsConnections s)
    (h : Tracked s)
    (hspares : SparesOthers s a f)
    (hi : s.threads[i]? = some (f :: rest))
    (hstep : f.step s.shared a = some o)
    {g : ConnectionFrame}
    (hg : g ∈ (afterStep s i o rest).frames)
    (hauth : g.authenticated = true)
    (hactive : Active (afterStep s i o rest).shared g.connection) :
    Bound (afterStep s i o rest).shared g.connection := by
  have hf := mem_frames_of_getElem? hi (List.mem_cons_self ..)
  have heffect := ConnectionFrame.step_shared hstep
  simp only [heffect] at hactive ⊢
  have hbefore := hactive.of_effect
  rcases h.frames_after hi hg with hnew | ⟨hold, htoken⟩
  · have hsame (hfauth : f.authenticated = true)
        (hconn : g.connection = f.connection)
        (hsessions : (f.effect s.shared a).sessions = s.shared.sessions) :
        Bound (f.effect s.shared a) g.connection := by
      have hbound := hkeeps.session f hf hfauth (hconn ▸ hbefore)
      rw [hconn]
      simpa only [Bound, hsessions] using hbound
    cases ConnectionFrame.follows hstep hnew with
    | opening _ _ hnot _ => simp [hauth] at hnot
    | inserted => exact ⟨_, AuthStore.insert_self, rfl, rfl⟩
    | @rebuilt c =>
        simp only [ConnectionFrame.effect]
        cases hs : s.shared.sessions c.instanceUuid7 with
        | none =>
            rw [if_pos rfl]
            exact ⟨_, AuthStore.insert_self, rfl, rfl⟩
        | some session =>
            rw [if_neg (by simp)]
            exact ⟨session, hs, hspares hbefore session hs,
              (h.stamped _ session hs).2⟩
    | responded =>
        refine hsame rfl rfl ?_
        simp only [ConnectionFrame.effect]
        split <;> rfl
    | registered =>
        refine hsame rfl rfl ?_
        simp only [ConnectionFrame.effect]
        split <;> rfl
    | armed => exact hsame rfl rfl rfl
    | served =>
        refine hsame rfl rfl ?_
        simp only [ConnectionFrame.effect]
        split <;> rfl
    | ended hclosing =>
        cases g <;> simp [ConnectionFrame.closing, ConnectionFrame.authenticated]
          at hauth hclosing
  · refine (hkeeps.session g hold hauth hbefore).of_effect htoken hactive ?_
    rintro c reconnect rfl
    exact hspares g hold hauth hbefore

/-- The live connections keep their kill switches, and a new one gets its
own. -/
theorem KeepsConnections.switch_run
    (hkeeps : KeepsConnections s)
    (h : Tracked s)
    (hspares : SparesOthers s a f)
    (hi : s.threads[i]? = some (f :: rest))
    (hstep : f.step s.shared a = some o)
    {g : ConnectionFrame}
    (hg : g ∈ (afterStep s i o rest).frames)
    (hserving : g.serving = true)
    (hactive : Active (afterStep s i o rest).shared g.connection) :
    (afterStep s i o rest).shared.killMap g.connection.instanceUuid7 =
      some g.token := by
  have hf := mem_frames_of_getElem? hi (List.mem_cons_self ..)
  have heffect := ConnectionFrame.step_shared hstep
  simp only [heffect] at hactive ⊢
  have hbefore := hactive.of_effect
  rcases h.frames_after hi hg with hnew | ⟨hold, htoken⟩
  · cases ConnectionFrame.follows hstep hnew with
    | armed => exact Function.update_self ..
    | served =>
        rw [ConnectionFrame.effect_killMap (by simp) (by simp)]
        exact hkeeps.switch _ hf rfl hbefore
    | opening _ _ hnot _ =>
        cases g <;> simp [ConnectionFrame.serving, ConnectionFrame.authenticated]
          at hserving hnot
    | ended hclosing =>
        cases g <;> simp [ConnectionFrame.closing, ConnectionFrame.serving]
          at hserving hclosing
    | _ => cases hserving
  · rw [ConnectionFrame.effect_killMap]
    · exact hkeeps.switch g hold hserving hbefore
    · rintro c rfl
      exact (hspares g hold hserving hbefore).symm
    · rintro c rfl
      exact (hspares g hold hserving hbefore).symm

/-- A slot stays live when a step neither changes it nor ends the connection
in it. -/
theorem SlotLive.run
    {name : String}
    (hlive : SlotLive s name)
    (hi : s.threads[i]? = some (f :: rest))
    (hstep : f.step s.shared a = some o)
    (hsame : (f.effect s.shared a).moduleSenders name =
      s.shared.moduleSenders name)
    (hself : s.shared.moduleSenders name = some f.token →
      s.shared.closed f.token = false →
      (f.effect s.shared a).closed f.token = false ∧ ∃ g ∈ o.new, g.routed = true) :
    SlotLive (afterStep s i o rest) name := by
  obtain ⟨k, hk, hopen, g, hg, hrouted, htoken⟩ := hlive
  refine ⟨k, ?_, ?_, ?_⟩
  · simp only [ConnectionFrame.step_shared hstep]
    exact hsame ▸ hk
  · show o.shared.closed k = false
    rw [ConnectionFrame.step_shared hstep]
    by_cases hkf : k = f.token
    · subst hkf
      exact (hself hk hopen).1
    · rw [ConnectionFrame.effect_closed hkf]
      exact hopen
  · by_cases hkf : k = f.token
    · subst hkf
      obtain ⟨g', hg', hrouted'⟩ := (hself hk hopen).2
      exact ⟨g', mem_afterStep_of_new hi hg', hrouted', token_of_new hstep hg'⟩
    · exact ⟨g, mem_afterStep_of_ne hi hstep hg (htoken ▸ hkf), hrouted, htoken⟩

/-- A registration fills the slot with the sender of a connection that runs. -/
theorem Tracked.slotLive_of_filled
    (h : Tracked s)
    {c : Connection}
    (hi : s.threads[i]? = some (.registerSender c :: rest))
    (hstep : (ConnectionFrame.registerSender c).step s.shared a = some o)
    (hslot : ((ConnectionFrame.registerSender c).effect s.shared a).moduleSenders
      c.routeName = some c.socketToken) :
    SlotLive (afterStep s i o rest) c.routeName := by
  have hf := mem_frames_of_getElem? hi (List.mem_cons_self ..)
  have heffect := ConnectionFrame.step_shared hstep
  refine ⟨c.socketToken, ?_, ?_, .registerKill c, ?_, rfl, rfl⟩
  · simp only [heffect]
    exact hslot
  · show o.shared.closed c.socketToken = false
    rw [heffect]
    have hopen := h.opened _ hf rfl rfl
    simp only [ConnectionFrame.effect]
    split <;> exact hopen
  · obtain rfl := Option.some.inj hstep
    exact mem_afterStep_of_new hi (by simp)

/-- A connection that registers fills its slot, or stands beside the one in it. -/
theorem Tracked.slotLive_of_registered
    (h : Tracked s)
    {c : Connection}
    (hspares : SparesOthers s a (.registerSender c))
    (hi : s.threads[i]? = some (.registerSender c :: rest))
    (hstep : (ConnectionFrame.registerSender c).step s.shared a = some o)
    (hactive : Active s.shared c) :
    SlotLive (afterStep s i o rest) c.routeName := by
  have hf := mem_frames_of_getElem? hi (List.mem_cons_self ..)
  by_cases hshadow : s.shared.shadows c = true
  · have hslot : ((ConnectionFrame.registerSender c).effect s.shared a).moduleSenders
        c.routeName = s.shared.moduleSenders c.routeName := by
      simp [ConnectionFrame.effect, hshadow]
    have hsender : s.shared.liveSender c.routeName = true := by
      simp only [ConnectionTables.shadows, shouldShadow, Bool.and_eq_true] at hshadow
      exact hshadow.1
    simp only [ConnectionTables.liveSender] at hsender
    cases hk : s.shared.moduleSenders c.routeName with
    | none => simp [hk] at hsender
    | some k =>
        have hlive : SlotLive s c.routeName :=
          ⟨k, hk, by simpa [hk] using hsender, hspares hactive hshadow k hk⟩
        refine hlive.run hi hstep hslot fun hself _ => ?_
        exact absurd hself (h.unrouted _ hf rfl rfl c.routeName)
  · refine h.slotLive_of_filled hi hstep ?_
    rw [ConnectionFrame.effect, if_neg hshadow]
    exact Function.update_self ..

/-- The connection that ran has a live slot while it goes on. -/
theorem KeepsConnections.slot_new
    (hkeeps : KeepsConnections s)
    (h : Tracked s)
    (hspares : SparesOthers s a f)
    (hi : s.threads[i]? = some (f :: rest))
    (hstep : f.step s.shared a = some o)
    {g : ConnectionFrame}
    (hg : g ∈ o.new)
    (hrouted : g.routed = true)
    (hactive : Active (f.effect s.shared a) g.connection) :
    SlotLive (afterStep s i o rest) g.connection.routeName := by
  have hf := mem_frames_of_getElem? hi (List.mem_cons_self ..)
  have hbefore := hactive.of_effect
  cases ConnectionFrame.follows hstep hg with
  | registered => exact h.slotLive_of_registered hspares hi hstep hbefore
  | armed =>
      exact (hkeeps.slot _ hf rfl hbefore).run hi hstep rfl
        fun _ hopen => ⟨hopen, _, hg, rfl⟩
  | served =>
      refine (hkeeps.slot _ hf rfl hbefore).run hi hstep ?_
        fun _ _ => ⟨hactive.1, _, hg, rfl⟩
      simp only [ConnectionFrame.effect]
      split <;> rfl
  | opening _ _ hnot _ =>
      cases g <;> simp [ConnectionFrame.routed, ConnectionFrame.authenticated]
        at hrouted hnot
  | ended hclosing =>
      cases g <;> simp [ConnectionFrame.closing, ConnectionFrame.routed]
        at hrouted hclosing
  | _ => cases hrouted

/-- A connection in a slot that runs on stays open. -/
theorem ConnectionFrame.stays_of_routed
    (hrouted : f.routed = true)
    (hgoes : ∀ c, f = .serve c → a.received.ends s.shared = false)
    (hstep : f.step s.shared a = some o)
    (hopen : s.shared.closed f.token = false) :
    (f.effect s.shared a).closed f.token = false ∧ ∃ g ∈ o.new, g.routed = true := by
  cases f with
  | registerKill c =>
      obtain rfl := Option.some.inj hstep
      exact ⟨hopen, .serve c, by simp, rfl⟩
  | serve c =>
      have hends := hgoes c rfl
      rcases ConnectionFrame.serve_cases hstep with ⟨rfl, -⟩ | ⟨-, h⟩ | ⟨-, h⟩
      · refine ⟨?_, .serve c, by simp, rfl⟩
        have hnot : a.received ≠ .writerExits := by
          intro hexits
          simp [hexits, Received.ends] at hends
        simpa [ConnectionFrame.effect, hnot] using hopen
      · simp [hends] at h
      · simp [hends] at h
  | _ => cases hrouted

/-- The slots of live connections stay live. -/
theorem KeepsConnections.slot_run
    (hkeeps : KeepsConnections s)
    (h : Tracked s)
    (hspares : SparesOthers s a f)
    (hi : s.threads[i]? = some (f :: rest))
    (hstep : f.step s.shared a = some o)
    {g : ConnectionFrame}
    (hg : g ∈ (afterStep s i o rest).frames)
    (hrouted : g.routed = true)
    (hactive : Active (afterStep s i o rest).shared g.connection) :
    SlotLive (afterStep s i o rest) g.connection.routeName := by
  have hf := mem_frames_of_getElem? hi (List.mem_cons_self ..)
  simp only [ConnectionFrame.step_shared hstep] at hactive
  have hbefore := hactive.of_effect
  rcases h.frames_after hi hg with hnew | ⟨hold, htoken⟩
  · exact hkeeps.slot_new h hspares hi hstep hnew hrouted hactive
  · have hlive := hkeeps.slot g hold hrouted hbefore
    rcases ConnectionFrame.effect_moduleSenders (t := s.shared) (a := a) (f := f)
        g.connection.routeName with hsame | ⟨hfree, -⟩ | ⟨c, rfl, hname, -, hslot⟩
    · refine hlive.run hi hstep hsame fun hself hopen => ?_
      -- the connection that ran is the one in the slot
      obtain ⟨k, hk, -, g', hg', hrouted', htoken'⟩ := hlive
      obtain rfl : f.token = k := Option.some.inj (hself.symm.trans hk)
      obtain rfl := h.eq_of_token hg' hf htoken'
      refine ConnectionFrame.stays_of_routed hrouted' ?_ hstep hopen
      rintro c rfl
      rw [Bool.eq_false_iff]
      exact fun hends => hspares hends g hold hrouted htoken hbefore hself
    · exfalso
      cases f with
      | freeSlot c =>
          exact hspares g hold hrouted htoken hbefore (hfree : _ = _).symm
      | unregisterSender c stillOwned =>
          obtain ⟨hown, howner, hname⟩ := hfree
          exact hspares hown howner g hold hrouted htoken hbefore hname.symm
      | _ => exact hfree
    · rw [← hname] at hslot ⊢
      exact h.slotLive_of_filled hi hstep hslot

theorem KeepsConnections.run
    (hkeeps : KeepsConnections s)
    (h : Tracked s)
    (hspares : SparesOthers s a f)
    (hi : s.threads[i]? = some (f :: rest))
    (hstep : f.step s.shared a = some o) :
    KeepsConnections (afterStep s i o rest) where
  session _ := hkeeps.session_run h hspares hi hstep
  switch _ := hkeeps.switch_run h hspares hi hstep
  slot _ := hkeeps.slot_run h hspares hi hstep

/-- The pool after a move of the world. -/
abbrev afterEvent (s : ConnectionPool) (ev : ConnectionEvent) : ConnectionPool :=
  { shared := ev.effect s.shared, threads := s.threads ++ ev.starts s.shared }

/-- A move of the world closes, takes over, routes and unregisters nothing. -/
theorem ConnectionEvent.effect_kept
    (t : ConnectionTables)
    (ev : ConnectionEvent) :
    (ev.effect t).closed = t.closed ∧ (ev.effect t).takenOver = t.takenOver ∧
      (ev.effect t).moduleSenders = t.moduleSenders ∧
      (ev.effect t).killMap = t.killMap := by
  cases ev with
  | unresponsive u =>
      rw [ConnectionEvent.effect, t.throwKill_eq]
      exact ⟨rfl, rfl, rfl, rfl⟩
  | _ => exact ⟨rfl, rfl, rfl, rfl⟩

theorem ConnectionEvent.le_nextSocketToken
    (t : ConnectionTables)
    (ev : ConnectionEvent) :
    t.nextSocketToken ≤ (ev.effect t).nextSocketToken := by
  cases ev with
  | unresponsive u => rw [ConnectionEvent.effect, t.throwKill_eq]
  | _ => simp [ConnectionEvent.effect]

/-- The sweep only takes sessions. -/
theorem ConnectionEvent.sessions_before
    {t : ConnectionTables}
    {ev : ConnectionEvent}
    {u : String}
    {session : AuthSession}
    (hs : session ∈ (ev.effect t).sessions u) :
    session ∈ t.sessions u := by
  cases ev with
  | unresponsive u =>
      rw [ConnectionEvent.effect, t.throwKill_eq] at hs
      exact hs
  | sweepShutdownSessions now maxAge => exact AuthStore.of_sweepShutdownSessions hs
  | _ => exact hs

/-- A client stands at the start of its program, with the next token. -/
theorem ConnectionEvent.starts_cases
    {t : ConnectionTables}
    {ev : ConnectionEvent}
    {g : ConnectionFrame}
    (hg : g ∈ (ev.starts t).flatten) :
    g.token = t.nextSocketToken ∧ g.authenticated = false ∧ g.routed = false ∧
      g.serving = false ∧
      (ev.effect t).nextSocketToken = t.nextSocketToken + 1 := by
  cases ev <;> simp only [ConnectionEvent.starts, List.flatten_nil,
    List.not_mem_nil, List.flatten_cons, List.append_nil, List.mem_singleton] at hg
  all_goals
    subst hg
    exact ⟨rfl, rfl, rfl, rfl, rfl⟩

/-- What is live after a move of the world was live before it. -/
theorem Active.before_event
    {ev : ConnectionEvent}
    {c : Connection}
    (h : Active (ev.effect s.shared) c) :
    Active s.shared c := by
  obtain ⟨hopen, hkilled, howner⟩ := h
  obtain ⟨hclosed, htaken, -, -⟩ := ev.effect_kept s.shared
  refine ⟨hclosed ▸ hopen, ?_, htaken ▸ howner⟩
  cases ev with
  | unresponsive u => exact s.shared.killed_of_throwKill u hkilled
  | _ => exact hkilled

theorem mem_afterEvent
    {ev : ConnectionEvent}
    {g : ConnectionFrame}
    (hg : g ∈ (afterEvent s ev).frames) :
    g ∈ s.frames ∨ g ∈ (ev.starts s.shared).flatten :=
  mem_frames_after_world (r := (ev.effect s.shared, ev.starts s.shared)) hg

/-- No token is given twice: nobody has the next one yet. -/
theorem Tracked.tokens_event
    (h : Tracked s)
    (ev : ConnectionEvent)
    (k : Nat) :
    (afterEvent s ev).total (ownsToken k) ≤ 1 := by
  rw [total_fire_world (r := (ev.effect s.shared, ev.starts s.shared))]
  show s.total (ownsToken k) + ((ev.starts s.shared).flatten.map (ownsToken k)).sum ≤ 1
  have hone := h.tokens k
  by_cases hk : k = s.shared.nextSocketToken
  · have hzero : s.total (ownsToken k) = 0 := by
      refine List.sum_eq_zero fun n hn => ?_
      obtain ⟨g, hg, rfl⟩ := List.mem_map.mp hn
      have hlt := h.fresh g hg
      exact if_neg (by omega)
    have hle : ((ev.starts s.shared).flatten.map (ownsToken k)).sum ≤ 1 := by
      cases ev <;> simp [ConnectionEvent.starts, ownsToken]
      all_goals split <;> omega
    omega
  · have hzero : ((ev.starts s.shared).flatten.map (ownsToken k)).sum = 0 := by
      refine List.sum_eq_zero fun n hn => ?_
      obtain ⟨g, hg, rfl⟩ := List.mem_map.mp hn
      exact if_neg (by
        rw [(ConnectionEvent.starts_cases hg).1]
        exact fun heq => hk heq.symm)
    omega

/-- A client gets a token of its own, and nothing carries it yet. -/
theorem Tracked.event
    (h : Tracked s)
    (ev : ConnectionEvent) :
    Tracked (afterEvent s ev) := by
  have hnext := ev.le_nextSocketToken s.shared
  obtain ⟨hclosed, -, hsenders, -⟩ := ev.effect_kept s.shared
  refine ⟨h.tokens_event ev, fun g hg => ?_, fun k hk => ?_,
    fun g hg hserving hclosing => ?_, fun name k hk => ?_,
    fun g hg hrouted hclosing name => ?_, fun u session hs => ?_,
    fun u session hs hshut g hg hclosing => ?_⟩
  · rcases mem_afterEvent hg with hg | hg
    · exact (h.fresh g hg).trans_le hnext
    · obtain ⟨htoken, -, -, -, hsucc⟩ := ConnectionEvent.starts_cases hg
      show g.token < (ev.effect s.shared).nextSocketToken
      omega
  · show (ev.effect s.shared).closed k = false
    rw [hclosed]
    exact h.unopened k (hnext.trans hk)
  · show (ev.effect s.shared).closed g.token = false
    rw [hclosed]
    rcases mem_afterEvent hg with hg | hg
    · exact h.opened g hg hserving hclosing
    · rw [(ConnectionEvent.starts_cases hg).1]
      exact h.unopened _ (Nat.le_refl _)
  · simp only [hsenders] at hk
    exact (h.senders name k hk).trans_le hnext
  · simp only [hsenders]
    rcases mem_afterEvent hg with hg | hg
    · exact h.unrouted g hg hrouted hclosing name
    · rw [(ConnectionEvent.starts_cases hg).1]
      exact fun hk => Nat.lt_irrefl _ (h.senders name _ hk)
  · obtain ⟨hlt, hauth⟩ := h.stamped u session (ConnectionEvent.sessions_before hs)
    exact ⟨hlt.trans_le hnext, hauth⟩
  · have hbefore := ConnectionEvent.sessions_before hs
    rcases mem_afterEvent hg with hg | hg
    · exact h.shut u session hbefore hshut g hg hclosing
    · rw [(ConnectionEvent.starts_cases hg).1]
      exact (h.stamped u session hbefore).1.ne'

/-- The sweep takes no session of a connection that is not over. -/
theorem Bound.event
    (h : Tracked s)
    (ev : ConnectionEvent)
    {g : ConnectionFrame}
    (hg : g ∈ s.frames)
    (hauth : g.authenticated = true)
    (hbound : Bound s.shared g.connection) :
    Bound (ev.effect s.shared) g.connection := by
  obtain ⟨session, hs, htoken, hok⟩ := hbound
  refine ⟨session, ?_, htoken, hok⟩
  cases ev with
  | unresponsive u =>
      show session ∈ (s.shared.throwKill u).sessions _
      rw [s.shared.throwKill_eq]
      exact hs
  | sweepShutdownSessions now maxAge =>
      refine AuthStore.sweepShutdownSessions_of_live hs ?_
      by_contra hshut
      -- a session that waits for the sweep belongs to a cleanup
      refine h.shut _ session hs hshut g hg ?_ htoken.symm
      cases g <;> first | rfl | cases hauth
  | _ => exact hs

/-- A slot that is live stays so while its senders and its connection stay. -/
theorem SlotLive.event
    {name : String}
    (ev : ConnectionEvent)
    (h : SlotLive s name) :
    SlotLive (afterEvent s ev) name := by
  obtain ⟨hclosed, -, hsenders, -⟩ := ev.effect_kept s.shared
  obtain ⟨k, hk, hopen, g, hg, hrouted, htoken⟩ := h
  obtain ⟨thread, hthread, hmem⟩ := List.mem_flatten.mp hg
  refine ⟨k, by simpa only [hsenders] using hk, by simpa only [hclosed] using hopen,
    g, ?_, hrouted, htoken⟩
  exact List.mem_flatten.mpr ⟨thread, List.mem_append_left _ hthread, hmem⟩

theorem KeepsConnections.event
    (hkeeps : KeepsConnections s)
    (h : Tracked s)
    (ev : ConnectionEvent) :
    KeepsConnections (afterEvent s ev) := by
  refine ⟨fun g hg hauth hlive => ?_, fun g hg hserving hlive => ?_,
    fun g hg hrouted hlive => ?_⟩
  · rcases mem_afterEvent hg with hold | hfirst
    · exact Bound.event h ev hold hauth
        (hkeeps.session g hold hauth hlive.before_event)
    · rw [(ConnectionEvent.starts_cases hfirst).2.1] at hauth
      cases hauth
  · simp only [(ev.effect_kept s.shared).2.2.2]
    rcases mem_afterEvent hg with hold | hfirst
    · exact hkeeps.switch g hold hserving hlive.before_event
    · rw [(ConnectionEvent.starts_cases hfirst).2.2.2.1] at hserving
      cases hserving
  · rcases mem_afterEvent hg with hold | hfirst
    · exact (hkeeps.slot g hold hrouted hlive.before_event).event ev
    · rw [(ConnectionEvent.starts_cases hfirst).2.2.1] at hrouted
      cases hrouted

/-- The world's moves keep the invariant: a client gets a token of its own, and
the sweep takes no session of a connection that is not over. -/
theorem Tracked.world
    (h : Tracked s)
    (hkeeps : KeepsConnections s)
    (ev : ConnectionEvent) :
    Tracked
        { shared := ev.effect s.shared, threads := s.threads ++ ev.starts s.shared } ∧
      KeepsConnections
        { shared := ev.effect s.shared
          threads := s.threads ++ ev.starts s.shared } :=
  ⟨h.event ev, hkeeps.event h ev⟩

/-- Another live connection is no less live after a step, but for a kill. -/
theorem Active.effect_of_quiet
    {c : Connection}
    (h : Active s.shared c)
    (hne : c.socketToken ≠ f.token)
    (hkilled : (f.effect s.shared a).killed = s.shared.killed)
    (howner : (f.effect s.shared a).takenOver = s.shared.takenOver) :
    Active (f.effect s.shared a) c := by
  obtain ⟨hopen, hlives, hown⟩ := h
  exact ⟨(ConnectionFrame.effect_closed hne).trans hopen, hkilled ▸ hlives,
    howner ▸ hown⟩

/-- Two frames in different phases are two connections. -/
theorem Tracked.token_ne
    (h : Tracked s) {g : ConnectionFrame}
    (hg : g ∈ s.frames) (hf : f ∈ s.frames)
    (hne : g ≠ f) :
    g.token ≠ f.token :=
  fun htoken => hne (h.eq_of_token hg hf htoken)

theorem afterStep_shared
    (hstep : f.step s.shared a = some o) :
    (afterStep s i o rest).shared = f.effect s.shared a :=
  ConnectionFrame.step_shared hstep

/-- What a step leaves to the live connections that it does not run. -/
theorem KeepsConnections.of_afterStep
    (hi : s.threads[i]? = some (f :: rest))
    (hstep : f.step s.shared a = some o)
    (hafter : KeepsConnections (afterStep s i o rest))
    {g : ConnectionFrame}
    (hg : g ∈ s.frames)
    (hne : g.token ≠ f.token)
    (hactive : Active (f.effect s.shared a) g.connection) :
    (g.authenticated = true → Bound (f.effect s.shared a) g.connection) ∧
      (g.serving = true →
        (f.effect s.shared a).killMap g.connection.instanceUuid7 = some g.token) ∧
      (g.routed = true → SlotLive (afterStep s i o rest) g.connection.routeName) := by
  have hstays : g ∈ (afterStep s i o rest).frames := mem_afterStep_of_ne hi hstep hg hne
  rw [← afterStep_shared hstep] at hactive ⊢
  exact ⟨fun hauth => hafter.session g hstays hauth hactive,
    fun hserving => hafter.switch g hstays hserving hactive,
    fun hrouted => hafter.slot g hstays hrouted hactive⟩

theorem KeepsConnections.spares_dropOthers
    {c : Connection} {reconnect : Bool}
    (h : Tracked s)
    (hi : s.threads[i]? = some (.dropOthers c reconnect :: rest))
    (hstep : (ConnectionFrame.dropOthers c reconnect).step s.shared a = some o)
    (hafter : KeepsConnections (afterStep s i o rest)) :
    SparesOthers s a (.dropOthers c reconnect) := by
  intro g hg hauth hactive hu session hs hname
  have hf := mem_frames_of_getElem? hi (List.mem_cons_self ..)
  have hne : g.token ≠ c.socketToken := h.token_ne hg hf (by
    rintro rfl
    cases hauth)
  obtain ⟨session', hs', -⟩ := (hafter.of_afterStep hi hstep hg hne
    (hactive.effect_of_quiet hne rfl rfl)).1 hauth
  simp only [ConnectionFrame.effect] at hs'
  obtain ⟨hold, hkeep⟩ := AuthStore.removeOtherSessionsNamed_eq_some_iff.mp hs'
  obtain rfl := Option.some.inj (hs.symm.trans hold)
  exact hu (hkeep hname)

theorem KeepsConnections.spares_rebuildSession
    {c : Connection}
    (hi : s.threads[i]? = some (.rebuildSession c :: rest))
    (hstep : (ConnectionFrame.rebuildSession c).step s.shared a = some o)
    (hafter : KeepsConnections (afterStep s i o rest)) :
    SparesOthers s a (.rebuildSession c) := by
  intro hactive session hs
  have hsome : s.shared.sessions c.instanceUuid7 = some session := hs
  have hshared : (afterStep s i o rest).shared = s.shared := by
    rw [afterStep_shared hstep]
    simp [ConnectionFrame.effect, hsome]
  have hnew : ConnectionFrame.respond c ∈ o.new := by
    obtain rfl := Option.some.inj hstep
    simp
  obtain ⟨session', hs', htoken, -⟩ := hafter.session (.respond c)
    (mem_afterStep_of_new hi hnew) rfl (hshared ▸ hactive)
  rw [hshared, Option.mem_def] at hs'
  obtain rfl := Option.some.inj (hs'.symm.trans hsome)
  exact htoken

theorem KeepsConnections.spares_registerSender
    {c : Connection}
    (h : Tracked s)
    (hi : s.threads[i]? = some (.registerSender c :: rest))
    (hstep : (ConnectionFrame.registerSender c).step s.shared a = some o)
    (hafter : KeepsConnections (afterStep s i o rest)) :
    SparesOthers s a (.registerSender c) := by
  intro hactive hshadow k hk
  have hf := mem_frames_of_getElem? hi (List.mem_cons_self ..)
  have hshared : (afterStep s i o rest).shared = s.shared := by
    rw [afterStep_shared hstep]
    simp [ConnectionFrame.effect, hshadow]
  have hnew : ConnectionFrame.registerKill c ∈ o.new := by
    obtain rfl := Option.some.inj hstep
    simp
  obtain ⟨k', hk', -, g, hg, hrouted, htoken⟩ := hafter.slot (.registerKill c)
    (mem_afterStep_of_new hi hnew) rfl (hshared ▸ hactive)
  rw [hshared, Option.mem_def] at hk'
  obtain rfl := Option.some.inj (hk'.symm.trans hk)
  rcases h.frames_after hi hg with hnew | ⟨hold, -⟩
  · rw [token_of_new hstep hnew] at htoken
    subst htoken
    exact absurd hk (h.unrouted _ hf rfl rfl c.routeName)
  · exact ⟨g, hold, hrouted, htoken⟩

theorem KeepsConnections.spares_serve
    {c : Connection}
    (h : Tracked s)
    (hi : s.threads[i]? = some (.serve c :: rest))
    (hstep : (ConnectionFrame.serve c).step s.shared a = some o)
    (hafter : KeepsConnections (afterStep s i o rest)) :
    SparesOthers s a (.serve c) := by
  intro hends g hg hrouted hne hactive hself
  obtain ⟨hkilled, howner, hsenders⟩ :
      ((ConnectionFrame.serve c).effect s.shared a).killed = s.shared.killed ∧
        ((ConnectionFrame.serve c).effect s.shared a).takenOver =
          s.shared.takenOver ∧
        ((ConnectionFrame.serve c).effect s.shared a).moduleSenders =
          s.shared.moduleSenders := by
    simp only [ConnectionFrame.effect]
    split <;> exact ⟨rfl, rfl, rfl⟩
  obtain ⟨k, hk, hopen, g', hg', hrouted', htoken'⟩ :=
    (hafter.of_afterStep hi hstep hg hne
      (hactive.effect_of_quiet hne hkilled howner)).2.2 hrouted
  rw [afterStep_shared hstep, hsenders, Option.mem_def, hself] at hk
  obtain rfl := Option.some.inj hk
  rcases ConnectionFrame.serve_cases hstep with ⟨-, hgoes⟩ | ⟨rfl, -⟩ | ⟨rfl, -⟩
  · simp [hends] at hgoes
  · rcases h.frames_after hi hg' with hnew | ⟨-, hother⟩
    · obtain rfl : g' = _ := by simpa using hnew
      cases hrouted'
    · exact hother htoken'
  · simp [ConnectionTables.close] at hopen

/-- A step that hits another live connection breaks the property at once. -/
theorem KeepsConnections.spares
    (h : Tracked s)
    (hi : s.threads[i]? = some (f :: rest))
    (hstep : f.step s.shared a = some o)
    (hafter : KeepsConnections (afterStep s i o rest)) :
    SparesOthers s a f := by
  have hf := mem_frames_of_getElem? hi (List.mem_cons_self ..)
  have heffect := ConnectionFrame.step_shared hstep
  cases f with
  | dropOthers c reconnect => exact spares_dropOthers h hi hstep hafter
  | rebuildSession c => exact spares_rebuildSession hi hstep hafter
  | freeSlot c =>
      intro g hg hrouted hne hactive hname
      obtain ⟨k, hk, -⟩ := (hafter.of_afterStep hi hstep hg hne
        (hactive.effect_of_quiet hne rfl rfl)).2.2 hrouted
      simp [heffect, ConnectionFrame.effect, ConnectionTables.freeSlot, hname] at hk
  | registerSender c => exact spares_registerSender h hi hstep hafter
  | registerKill c =>
      intro g hg hserving hactive hu
      have hne : g.token ≠ c.socketToken := h.token_ne hg hf (by
        rintro rfl
        cases hserving)
      have hswitch := (hafter.of_afterStep hi hstep hg hne
        (hactive.effect_of_quiet hne rfl rfl)).2.1 hserving
      simp only [ConnectionFrame.effect, hu, Function.update_self] at hswitch
      exact hne (Option.some.inj hswitch).symm
  | serve c => exact spares_serve h hi hstep hafter
  | unregisterKill c =>
      intro g hg hserving hactive hu
      have hne : g.token ≠ c.socketToken := h.token_ne hg hf (by
        rintro rfl
        cases hserving)
      have hswitch := (hafter.of_afterStep hi hstep hg hne
        (hactive.effect_of_quiet hne rfl rfl)).2.1 hserving
      simp [ConnectionFrame.effect, hu] at hswitch
  | unregisterSender c stillOwned =>
      intro hown howner g hg hrouted hne hactive hname
      have hfree : (ConnectionFrame.unregisterSender c stillOwned).effect s.shared a =
          s.shared.freeSlot c.routeName := by
        simp [ConnectionFrame.effect, hown, howner]
      obtain ⟨k, hk, -⟩ := (hafter.of_afterStep hi hstep hg hne
        (hactive.effect_of_quiet hne (by rw [hfree]; rfl)
          (by rw [hfree]; rfl))).2.2 hrouted
      simp [heffect, hfree, ConnectionTables.freeSlot, hname] at hk
  | _ => trivial

end Invariant

/-- **Main theorem.**  A run of connects, takeovers, reconnects and cleanups
keeps every live connection's session and kill switch and the slot of every
live name, in each of its states, exactly when no step of it hits another live
connection. -/
theorem connections_kept_iff
    (ls : List ConnectionLabel)
    (hrun : (connections.exec { shared := {}, threads := [] } ls).isSome) :
    AllStates connections KeepsConnections { shared := {}, threads := [] } ls ↔
      AllSteps connections (OnRun SparesOthers) { shared := {}, threads := [] }
        ls := by
  refine allStates_iff_allSteps (I := fun s => Tracked s ∧ KeepsConnections s)
    (fun h => h.2) ?_ ?_ ?_ hrun
  · rintro s s' l ⟨h, hkeeps⟩ hok hfire
    cases l with
    | world ev =>
        obtain ⟨r, hr, rfl⟩ := fire_world_cases hfire
        obtain rfl := Option.some.inj hr
        exact h.world hkeeps ev
    | run i a =>
        obtain ⟨f, rest, o, hi, ho, rfl⟩ := fire_run_cases hfire
        exact ⟨h.run hi ho, hkeeps.run h (hok.top hi) hi ho⟩
  · rintro s s' l ⟨h, -⟩ hfire hafter
    cases l with
    | world ev => trivial
    | run i a =>
        obtain ⟨f, rest, o, hi, ho, rfl⟩ := fire_run_cases hfire
        intro g hg
        obtain rfl : f = g := by simpa [Pool.top, hi] using hg
        exact KeepsConnections.spares h hi ho hafter
  · constructor <;> constructor <;> simp [Pool.total, Pool.frames]

/-- A module connects by PIN; a second instance of it connects and evicts the
first, whose cleanup then runs to its end. -/
def evictedByPin : List ConnectionLabel :=
  .world (.pinConnect "bot" "u1") :: List.replicate 6 (.run 0 {}) ++
  .world (.pinConnect "bot" "u2") :: List.replicate 8 (.run 1 {}) ++
  .run 0 { received := .killed } :: List.replicate 5 (.run 0 {})

theorem connections_kept_iff_evictedByPin :
    AllStates connections KeepsConnections { shared := {}, threads := [] }
      evictedByPin :=
  (connections_kept_iff evictedByPin (by decide +kernel)).mpr (by decide +kernel)

/-- A module connects by PIN and reconnects with its token; then the cleanup of
its first socket runs as far as the kill switch. -/
def cleanedAfterReconnect : List ConnectionLabel :=
  .world (.pinConnect "bot" "u1") :: List.replicate 6 (.run 0 {}) ++
  .world (.tokenReconnect "bot" "u1") :: List.replicate 7 (.run 1 {}) ++
  List.replicate 3 (.run 0 {})

/-- The new connection serves without a kill switch. -/
theorem switch_lost_to_old_cleanup :
    ¬ ∀ (ls : List ConnectionLabel) (s : ConnectionPool),
      connections.exec { shared := {}, threads := [] } ls = some s →
      KeepsConnections s := by
  intro h
  have hswitch := (h cleanedAfterReconnect _ rfl).switch
    (.serve ⟨"bot", "u1", "bot", 2⟩) (by decide) rfl (by decide)
  exact absurd hswitch (by decide)

end CockatielEngine
