import CockatielEngine.Connections.SlotOwnership
import CockatielEngine.Connections.Watchdog

/-!
# Connections: the watchdog's verdicts

A session should be given up only when it had been silent for the interval, was
then probed on its own connection, and did not speak up before it was marked.

**Main result.**  Every session that is marked unresponsive, and every
connection that is killed for it, deserves it, in every run whose watchdog acts
on current copies: a probe finds the session as copied, with an interval whose
milliseconds fit 32 bits; the slot of the module's name holds the session's own
sender, which takes the probe; a mark finds the session as copied; and the kill
switch is that of the connection that was probed.
-/

namespace CockatielEngine

open TaskPool

section Defs

variable (times : String → ProbeTimes)

/-- The session was probed after the interval's silence, the probe was queued to
this connection, and the session has not been heard since. -/
def Deserved (instanceUuid7 : String) (socketToken : Nat) (log : List WatchEvent) :
    Prop :=
  ∃ since name time before,
    log = since ++ .probed instanceUuid7 name time :: before ∧
    (∀ t, .heard instanceUuid7 t ∉ since) ∧
    (∀ t, .heard instanceUuid7 t ∈ before →
      t + (times name).interval.toNat * 1000 ≤ time) ∧
    .queued instanceUuid7 socketToken ∈ since

/-- A mark is deserved, and a kill follows the mark of the same connection. -/
def VerdictSound : WatchEvent → List WatchEvent → Prop
  | .marked instanceUuid7 k, earlier => Deserved times instanceUuid7 k earlier
  | .killed instanceUuid7 k, earlier => .marked instanceUuid7 k ∈ earlier
  | _, _ => True

/-- Every verdict on record was sound when it was reached. -/
def VerdictsSound : List WatchEvent → Prop
  | [] => True
  | ev :: earlier => VerdictSound times ev earlier ∧ VerdictsSound earlier

/-- The session in the table is the one that was copied, and has been left alone
since. -/
def SessionCopy.current (w : Watched) (c : SessionCopy) : Bool :=
  decide (w.liveness c.instanceUuid7 = c.liveness) &&
    (w.tables.sessions c.instanceUuid7).any fun session =>
      decide (session.socketToken = c.session.socketToken) &&
        decide (session.moduleName = c.session.moduleName)

/-- The watchdog acts on current copies only. -/
def ActsOnCurrent (s : WatchedPool) (a : WatchedAnswer) : WatchedFrame → Prop
  | .inr (.each now (c :: _)) =>
      c.probes (times c.session.moduleName) now = true →
        c.current s.shared = true ∧
          (times c.session.moduleName).interval.toNat * 1000 < 2 ^ 32
  | .inr (.probe _ c _) =>
      0 < (s.shared.liveness c.instanceUuid7).probeDeadlineMs →
        ∀ session ∈ s.shared.tables.sessions c.instanceUuid7,
          s.shared.tables.moduleSenders c.session.moduleName =
              some session.socketToken ∧
            s.shared.tables.closed session.socketToken = false ∧ a.queued = true
  | .inr (.mark _ c _) => c.current s.shared = true
  | .inr (.kill _ c _) =>
      ∀ k ∈ s.shared.tables.killMap c.instanceUuid7, k = c.session.socketToken
  | _ => True

instance (s : WatchedPool) (a : WatchedAnswer) (f : WatchedFrame) :
    Decidable (ActsOnCurrent times s a f) := by
  unfold ActsOnCurrent
  split <;> infer_instance

end Defs

section Invariant

/-- The session whose probe is about to be sent. -/
def WatchdogFrame.probing : WatchdogFrame → Option String
  | .probe _ c _ => some c.instanceUuid7
  | _ => none

/-- The time at which the present pass began. -/
def WatchdogFrame.began : WatchdogFrame → Nat
  | .sleep => 0
  | .values now => now
  | .each now _ => now
  | .mark now _ _ => now
  | .kill now _ _ => now
  | .probe now _ _ => now

variable (times : String → ProbeTimes)

/-- A probe is outstanding: it is deserved, but may yet have to be queued. -/
def Outstanding (instanceUuid7 : String) (socketToken : Nat) (unsent : Bool)
    (log : List WatchEvent) : Prop :=
  ∃ since name time before,
    log = since ++ .probed instanceUuid7 name time :: before ∧
    (∀ t, .heard instanceUuid7 t ∉ since) ∧
    (∀ t, .heard instanceUuid7 t ∈ before →
      t + (times name).interval.toNat * 1000 ≤ time) ∧
    (unsent = false → .queued instanceUuid7 socketToken ∈ since)

/-- What a run keeps: `f` is where the watchdog stands. -/
structure Watching (w : Watched) (f : WatchdogFrame) : Prop where
  past : ∀ u t, .heard u t ∈ w.log → t ≤ w.now
  lastHeard : ∀ u t, .heard u t ∈ w.log → (w.tables.sessions u).isSome = true →
    t ≤ (w.liveness u).lastActivityMs
  outstanding : ∀ u, ∀ session ∈ w.tables.sessions u,
    0 < (w.liveness u).probeDeadlineMs →
    Outstanding times u session.socketToken (decide (f.probing = some u)) w.log
  began : f.began ≤ w.now
  expired : ∀ now c todo, f = .mark now c todo → 0 < c.liveness.probeDeadlineMs
  marked : ∀ now c todo, f = .kill now c todo →
    .marked c.instanceUuid7 c.session.socketToken ∈ w.log
  sound : VerdictsSound times w.log

variable {times}
variable {w : Watched} {f : WatchdogFrame} {u : String} {k : Nat}

theorem Outstanding.deserved
    {log : List WatchEvent}
    (h : Outstanding times u k false log) :
    Deserved times u k log := by
  obtain ⟨since, name, time, before, hlog, hunheard, hsilent, hqueued⟩ := h
  exact ⟨since, name, time, before, hlog, hunheard, hsilent, hqueued rfl⟩

/-- Later events that are not heard from the session leave its probe
outstanding. -/
theorem Outstanding.cons
    {log : List WatchEvent} {unsent : Bool}
    (h : Outstanding times u k unsent log)
    (ev : WatchEvent)
    (hev : ∀ t, ev ≠ .heard u t) :
    Outstanding times u k unsent (ev :: log) := by
  obtain ⟨since, name, time, before, rfl, hunheard, hsilent, hqueued⟩ := h
  refine ⟨ev :: since, name, time, before, rfl, ?_, hsilent,
    fun hsent => List.mem_cons_of_mem _ (hqueued hsent)⟩
  intro t hmem
  rcases List.mem_cons.mp hmem with heq | hmem
  · exact hev t heq.symm
  · exact hunheard t hmem

end Invariant

section Connections

variable {times : String → ProbeTimes}
variable {t : ConnectionTables} {a : ConnectionAnswer} {f : ConnectionFrame}
variable {o : Outcome ConnectionTables ConnectionFrame} {u : String}

/-- A stamp is the present time, and no probe is outstanding after it. -/
theorem stamps_fresh
    {received : Received} {stamp : Nat → Liveness → Liveness}
    (h : f.stamps t received = some (u, stamp))
    (now : Nat) (l : Liveness) :
    (stamp now l).lastActivityMs = now ∧ (stamp now l).probeDeadlineMs = 0 := by
  cases f with
  | serve c =>
      simp only [ConnectionFrame.stamps] at h
      split at h
      · split at h
        · obtain ⟨-, rfl⟩ := Prod.mk.inj (Option.some.inj h)
          exact ⟨rfl, rfl⟩
        · cases h
      · cases h
  | insertSession c =>
      obtain ⟨-, rfl⟩ := Prod.mk.inj (Option.some.inj h)
      exact ⟨rfl, rfl⟩
  | claimSocket c =>
      obtain ⟨-, rfl⟩ := Prod.mk.inj (Option.some.inj h)
      exact ⟨rfl, rfl⟩
  | rebuildSession c =>
      simp only [ConnectionFrame.stamps] at h
      split at h
      · obtain ⟨-, rfl⟩ := Prod.mk.inj (Option.some.inj h)
        exact ⟨rfl, rfl⟩
      · cases h
  | _ => cases h

/-- A session after a step of a connection has just been stamped, or was there
with the same socket. -/
theorem sessions_step
    (h : f.step t a = some o)
    {session' : AuthSession}
    (hsession : o.shared.sessions u = some session') :
    (∃ stamp, f.stamps t a.received = some (u, stamp)) ∨
      ∃ session, t.sessions u = some session ∧
        session.socketToken = session'.socketToken := by
  rw [ConnectionFrame.step_shared h] at hsession
  have hkept (hs : t.sessions u = some session') :
      (∃ stamp, f.stamps t a.received = some (u, stamp)) ∨
        ∃ session, t.sessions u = some session ∧
          session.socketToken = session'.socketToken :=
    Or.inr ⟨session', hs, rfl⟩
  cases f with
  | evict c inc =>
      rw [ConnectionFrame.effect, t.throwKill_eq] at hsession
      exact hkept hsession
  | dropOthers c reconnect =>
      exact hkept (AuthStore.removeOtherSessionsNamed_eq_some_iff.mp hsession).1
  | insertSession c =>
      by_cases hu : u = c.instanceUuid7
      · subst hu
        exact Or.inl ⟨_, rfl⟩
      · exact hkept ((AuthStore.insert_of_ne hu).symm.trans hsession)
  | claimSocket c =>
      by_cases hu : u = c.instanceUuid7
      · subst hu
        exact Or.inl ⟨_, rfl⟩
      · exact hkept ((AuthStore.claimSocket_of_ne hu).symm.trans hsession)
  | rebuildSession c =>
      simp only [ConnectionFrame.effect] at hsession
      split at hsession
      · rename_i hnone
        by_cases hu : u = c.instanceUuid7
        · subst hu
          exact Or.inl ⟨.new, by simp [ConnectionFrame.stamps, hnone]⟩
        · exact hkept ((AuthStore.insert_of_ne hu).symm.trans hsession)
      · exact hkept hsession
  | shutdownSession c =>
      by_cases hu : u = c.instanceUuid7
      · subst hu
        simp only [ConnectionFrame.effect, AuthStore.setShutdownIfSocket,
          Function.update_self, Option.map_eq_some_iff] at hsession
        obtain ⟨session, hs, rfl⟩ := hsession
        refine Or.inr ⟨session, hs, ?_⟩
        split <;> rfl
      · exact hkept ((AuthStore.setShutdownIfSocket_of_ne hu).symm.trans hsession)
  | removeSession c => exact hkept (AuthStore.of_removeIfSocket hsession)
  | _ =>
      simp only [ConnectionFrame.effect] at hsession
      repeat' split at hsession
      all_goals exact hkept hsession

end Connections

section Steps

variable {times : String → ProbeTimes}
variable {w w' : Watched} {f : WatchdogFrame} {u : String}

/-- Time passes, and sessions go: what is kept of a smaller table. -/
theorem Watching.shrink
    (hw : Watching times w f)
    (hlog : w'.log = w.log)
    (hliveness : w'.liveness = w.liveness)
    (hnow : w.now ≤ w'.now)
    (hsessions : ∀ u session', w'.tables.sessions u = some session' →
      ∃ session, w.tables.sessions u = some session ∧
        session.socketToken = session'.socketToken) :
    Watching times w' f where
  past u t ht := (hw.past u t (hlog ▸ ht)).trans hnow
  lastHeard u t ht hsome := by
    obtain ⟨session', hs'⟩ := Option.isSome_iff_exists.mp hsome
    obtain ⟨session, hs, -⟩ := hsessions u session' hs'
    rw [hliveness]
    exact hw.lastHeard u t (hlog ▸ ht) (by simp [hs])
  outstanding u session' hs' hdeadline := by
    obtain ⟨session, hs, htoken⟩ := hsessions u session' hs'
    rw [hlog, ← htoken]
    exact hw.outstanding u session hs (hliveness ▸ hdeadline)
  began := hw.began.trans hnow
  expired := hw.expired
  marked now c todo heq := hlog ▸ hw.marked now c todo heq
  sound := hlog ▸ hw.sound

/-- A session is heard: its probe is answered, the others' go on. -/
theorem Watching.hear
    (hw : Watching times w f)
    (u : String) (stamp : Nat → Liveness → Liveness)
    (hstamp : ∀ now l, (stamp now l).lastActivityMs = now ∧
      (stamp now l).probeDeadlineMs = 0)
    (hsessions : ∀ v session', v ≠ u → w'.tables.sessions v = some session' →
      ∃ session, w.tables.sessions v = some session ∧
        session.socketToken = session'.socketToken)
    (hw' : w' = { w with tables := w'.tables }.hear u stamp) :
    Watching times w' f := by
  have hlog : w'.log = .heard u w.now :: w.log := by rw [hw']; rfl
  have hnow : w'.now = w.now := by rw [hw']; rfl
  have hself : w'.liveness u = stamp w.now (w.liveness u) := by
    rw [hw']
    exact Function.update_self ..
  have hother {v : String} (hv : v ≠ u) : w'.liveness v = w.liveness v := by
    rw [hw']
    exact Function.update_of_ne hv ..
  have hpast : ∀ v t, .heard v t ∈ w'.log → t ≤ w.now := by
    intro v t ht
    rw [hlog] at ht
    rcases List.mem_cons.mp ht with heq | ht
    · cases heq
      exact le_rfl
    · exact hw.past v t ht
  refine
    { past := by rwa [hnow]
      lastHeard := ?_
      outstanding := ?_
      began := by rw [hnow]; exact hw.began
      expired := hw.expired
      marked := ?_
      sound := by rw [hlog]; exact ⟨trivial, hw.sound⟩ }
  · intro v t ht hsome
    by_cases hv : v = u
    · subst hv
      rw [hself, (hstamp _ _).1]
      exact hpast v t ht
    · obtain ⟨session', hs'⟩ := Option.isSome_iff_exists.mp hsome
      obtain ⟨session, hs, -⟩ := hsessions v session' hv hs'
      rw [hlog] at ht
      rw [hother hv]
      refine hw.lastHeard v t ((List.mem_cons.mp ht).resolve_left ?_) (by simp [hs])
      rintro heq
      cases heq
      exact hv rfl
  · intro v session' hs' hdeadline
    by_cases hv : v = u
    · subst hv
      rw [hself, (hstamp _ _).2] at hdeadline
      exact absurd hdeadline (lt_irrefl 0)
    · obtain ⟨session, hs, htoken⟩ := hsessions v session' hv hs'
      rw [hother hv] at hdeadline
      rw [hlog, ← htoken]
      refine (hw.outstanding v session hs hdeadline).cons _ ?_
      rintro t heq
      cases heq
      exact hv rfl
  · intro now c todo heq
    rw [hlog]
    exact List.mem_cons_of_mem _ (hw.marked now c todo heq)

/-- A step of a connection. -/
theorem Watching.connection
    {a : ConnectionAnswer} {g : ConnectionFrame} {o : Outcome Watched WatchedFrame}
    (hw : Watching times w f)
    (h : connectionStep w a g = some o) :
    Watching times o.shared f := by
  obtain ⟨o', ho', rfl⟩ := Option.map_eq_some_iff.mp h
  cases hstamps : g.stamps w.tables a.received with
  | none =>
      refine hw.shrink ?_ ?_ ?_ ?_
      · simp
      · simp
      · simp
      · intro u session' hs'
        simp only at hs'
        rcases sessions_step ho' hs' with ⟨stamp, hstamp⟩ | hkept
        · simp [hstamps] at hstamp
        · exact hkept
  | some r =>
      obtain ⟨u, stamp⟩ := r
      refine hw.hear u stamp (stamps_fresh hstamps) ?_ ?_
      · intro v session' hv hs'
        simp only [Watched.hear] at hs'
        rcases sessions_step ho' hs' with ⟨stamp', hstamp'⟩ | hkept
        · rw [hstamps] at hstamp'
          exact absurd (Prod.mk.inj (Option.some.inj hstamp')).1.symm hv
        · exact hkept
      · simp [Watched.hear]

/-- The watchdog goes on while no probe waits to be sent. -/
theorem Watching.move
    {g : WatchdogFrame}
    (hw : Watching times w f)
    (hprobing : f.probing = none)
    (hbegan : g.began ≤ w.now)
    (hexpired : ∀ now c todo, g = .mark now c todo → 0 < c.liveness.probeDeadlineMs)
    (hmarked : ∀ now c todo, g = .kill now c todo →
      .marked c.instanceUuid7 c.session.socketToken ∈ w.log) :
    Watching times w g where
  past := hw.past
  lastHeard := hw.lastHeard
  outstanding u session hs hdeadline := by
    obtain ⟨since, name, time, before, hlog, hunheard, hsilent, hqueued⟩ :=
      hw.outstanding u session hs hdeadline
    exact ⟨since, name, time, before, hlog, hunheard, hsilent,
      fun _ => hqueued (by simp [hprobing])⟩
  began := hbegan
  expired := hexpired
  marked := hmarked
  sound := hw.sound

/-- A current copy is of the session in the table. -/
theorem SessionCopy.of_current
    {c : SessionCopy}
    (h : c.current w = true) :
    w.liveness c.instanceUuid7 = c.liveness ∧
      ∃ session, w.tables.sessions c.instanceUuid7 = some session ∧
        session.socketToken = c.session.socketToken ∧
        session.moduleName = c.session.moduleName := by
  simp only [SessionCopy.current, Bool.and_eq_true, decide_eq_true_eq] at h
  obtain ⟨hliveness, hany⟩ := h
  obtain ⟨session, hs, hsame⟩ := (Option.any_eq_true _ _).mp hany
  simp only [Bool.and_eq_true, decide_eq_true_eq] at hsame
  exact ⟨hliveness, session, hs, hsame.1, hsame.2⟩

/-- The watchdog probes the session of a current copy. -/
theorem Watching.probe
    {now deadline : Nat} {c : SessionCopy} {todo : List SessionCopy}
    (hw : Watching times w (.each now (c :: todo)))
    (hdue : c.due (times c.session.moduleName) now = true)
    (hcurrent : c.current w = true)
    (hfits : (times c.session.moduleName).interval.toNat * 1000 < 2 ^ 32) :
    Watching times (w.markProbed c.instanceUuid7 now deadline)
      (.probe now c todo) := by
  obtain ⟨hliveness, session, hs, -, hname⟩ := SessionCopy.of_current hcurrent
  simp only [SessionCopy.due, millis_of_lt hfits, Bool.and_eq_true,
    decide_eq_true_eq] at hdue
  have hbegan : now ≤ w.now := hw.began
  have hsilent : ∀ t, .heard c.instanceUuid7 t ∈ w.log →
      t + (times session.moduleName).interval.toNat * 1000 ≤ w.now := by
    intro t ht
    have hlast := hw.lastHeard c.instanceUuid7 t ht (by simp [hs])
    rw [hliveness] at hlast
    rw [hname]
    have := hdue.1
    omega
  have heq : w.markProbed c.instanceUuid7 now deadline =
      { w with
        liveness := Function.update w.liveness c.instanceUuid7
          (.markProbed now deadline (w.liveness c.instanceUuid7))
        log := .probed c.instanceUuid7 session.moduleName w.now :: w.log } := by
    simp [Watched.markProbed, Watched.modify, hs]
  rw [heq]
  refine
    { past := ?_
      lastHeard := ?_
      outstanding := ?_
      began := hbegan
      expired := by simp
      marked := by simp
      sound := ⟨trivial, hw.sound⟩ }
  · intro u t ht
    exact hw.past u t ((List.mem_cons.mp ht).resolve_left (by simp))
  · intro u t ht hsome
    have hlast := hw.lastHeard u t ((List.mem_cons.mp ht).resolve_left (by simp)) hsome
    by_cases hu : u = c.instanceUuid7
    · subst hu
      simpa [Liveness.markProbed] using hlast
    · simpa [Function.update_of_ne hu] using hlast
  · intro u session' hs' hdeadline
    by_cases hu : u = c.instanceUuid7
    · subst hu
      exact ⟨[], session.moduleName, w.now, w.log, rfl, by simp, hsilent,
        by simp [WatchdogFrame.probing]⟩
    · simp only [Function.update_of_ne hu] at hdeadline
      obtain ⟨since, name, time, before, hlog, hunheard, hsilent', hqueued⟩ :=
        (hw.outstanding u session' hs' hdeadline).cons
          (.probed c.instanceUuid7 session.moduleName w.now) (by simp)
      exact ⟨since, name, time, before, hlog, hunheard, hsilent',
        fun _ => hqueued (by simp [WatchdogFrame.probing])⟩

/-- The probe is sent into the slot, where the session's own sender takes it. -/
theorem Watching.sent
    {now : Nat} {c : SessionCopy} {todo : List SessionCopy} {queued : Bool}
    (hw : Watching times w (.probe now c todo))
    (hslot : 0 < (w.liveness c.instanceUuid7).probeDeadlineMs →
      ∀ session ∈ w.tables.sessions c.instanceUuid7,
        w.tables.moduleSenders c.session.moduleName = some session.socketToken ∧
          w.tables.closed session.socketToken = false ∧ queued = true) :
    Watching times (w.sendProbe c queued) (.each now todo) := by
  have hshape : w.sendProbe c queued = w ∨
      ∃ k, w.sendProbe c queued =
        { w with log := .queued c.instanceUuid7 k :: w.log } := by
    unfold Watched.sendProbe
    split
    · split
      · exact Or.inr ⟨_, rfl⟩
      · exact Or.inl rfl
    · exact Or.inl rfl
  have hfields : (w.sendProbe c queued).now = w.now ∧
      (w.sendProbe c queued).liveness = w.liveness ∧
      (w.sendProbe c queued).tables = w.tables := by
    rcases hshape with heq | ⟨k, heq⟩ <;> rw [heq] <;> exact ⟨rfl, rfl, rfl⟩
  obtain ⟨hnow, hlive, htables⟩ := hfields
  have hheard : ∀ u t, .heard u t ∈ (w.sendProbe c queued).log →
      .heard u t ∈ w.log := by
    rcases hshape with heq | ⟨k, heq⟩ <;> rw [heq] <;> simp
  refine
    { past := fun u t ht => hnow ▸ hw.past u t (hheard u t ht)
      lastHeard := fun u t ht hsome => by
        rw [hlive]
        exact hw.lastHeard u t (hheard u t ht) (htables ▸ hsome)
      outstanding := ?_
      began := hnow ▸ hw.began
      expired := by simp
      marked := by simp
      sound := ?_ }
  · intro u session hs hdeadline
    rw [htables] at hs
    rw [hlive] at hdeadline
    have hout := hw.outstanding u session hs hdeadline
    by_cases hu : u = c.instanceUuid7
    · subst hu
      obtain ⟨hsender, hopen, hqueued⟩ := hslot hdeadline session hs
      have heq : w.sendProbe c queued =
          { w with
            log := .queued c.instanceUuid7 session.socketToken :: w.log } := by
        simp [Watched.sendProbe, hsender, hopen, hqueued]
      obtain ⟨since, name, time, before, hlog, hunheard, hsilent, -⟩ := hout
      rw [heq]
      refine ⟨.queued c.instanceUuid7 session.socketToken :: since, name, time,
        before, by simp [hlog], ?_, hsilent, fun _ => List.mem_cons_self ..⟩
      intro t hmem
      exact hunheard t ((List.mem_cons.mp hmem).resolve_left (by simp))
    · have hother : decide ((WatchdogFrame.probe now c todo).probing = some u) =
          false := by
        simp [WatchdogFrame.probing, Ne.symm hu]
      rw [hother] at hout
      rcases hshape with heq | ⟨k, heq⟩ <;> rw [heq]
      · simpa [WatchdogFrame.probing] using hout
      · simpa [WatchdogFrame.probing] using hout.cons (.queued c.instanceUuid7 k)
          (by simp)
  · rcases hshape with heq | ⟨k, heq⟩ <;> rw [heq]
    · exact hw.sound
    · exact ⟨trivial, hw.sound⟩

/-- The session of a current copy, whose window is over, deserves its mark. -/
theorem Watching.mark
    {now : Nat} {c : SessionCopy} {todo : List SessionCopy}
    (hw : Watching times w (.mark now c todo))
    (hcurrent : c.current w = true) :
    Watching times (w.markUnresponsive c.instanceUuid7) (.kill now c todo) := by
  obtain ⟨hliveness, session, hs, htoken, -⟩ := SessionCopy.of_current hcurrent
  have hdeadline : 0 < (w.liveness c.instanceUuid7).probeDeadlineMs := by
    rw [hliveness]
    exact hw.expired now c todo rfl
  have hdeserved : Deserved times c.instanceUuid7 session.socketToken w.log :=
    (hw.outstanding c.instanceUuid7 session hs hdeadline).deserved
  have heq : w.markUnresponsive c.instanceUuid7 =
      { w with
        liveness := Function.update w.liveness c.instanceUuid7
          (w.liveness c.instanceUuid7).markUnresponsive
        log := .marked c.instanceUuid7 session.socketToken :: w.log } := by
    simp [Watched.markUnresponsive, Watched.modify, hs]
  rw [heq]
  refine
    { past := ?_
      lastHeard := ?_
      outstanding := ?_
      began := hw.began
      expired := by simp
      marked := ?_
      sound := ⟨hdeserved, hw.sound⟩ }
  · intro u t ht
    exact hw.past u t ((List.mem_cons.mp ht).resolve_left (by simp))
  · intro u t ht hsome
    have hlast := hw.lastHeard u t ((List.mem_cons.mp ht).resolve_left (by simp)) hsome
    by_cases hu : u = c.instanceUuid7
    · subst hu
      simpa [Liveness.markUnresponsive] using hlast
    · simpa [Function.update_of_ne hu] using hlast
  · intro u session' hs' hdeadline'
    by_cases hu : u = c.instanceUuid7
    · subst hu
      simp [Liveness.markUnresponsive] at hdeadline'
    · simp only [Function.update_of_ne hu] at hdeadline'
      exact (hw.outstanding u session' hs' hdeadline').cons _ (by simp)
  · rintro now' c' todo' hkill
    cases hkill
    rw [htoken]
    exact List.mem_cons_self ..

/-- The kill hits the connection that was marked. -/
theorem Watching.kill
    {now : Nat} {c : SessionCopy} {todo : List SessionCopy}
    (hw : Watching times w (.kill now c todo))
    (hswitch : ∀ k ∈ w.tables.killMap c.instanceUuid7, k = c.session.socketToken) :
    Watching times (w.kill c.instanceUuid7) (.each now todo) := by
  have hmarked := hw.marked now c todo rfl
  unfold Watched.kill
  split
  · rename_i k hk
    obtain rfl := hswitch k hk
    have htables : (w.tables.throwKill c.instanceUuid7).sessions =
        w.tables.sessions := by
      rw [ConnectionTables.throwKill_eq]
    refine
      { past := fun u t ht =>
          hw.past u t ((List.mem_cons.mp ht).resolve_left (by simp))
        lastHeard := fun u t ht hsome =>
          hw.lastHeard u t ((List.mem_cons.mp ht).resolve_left (by simp))
            (by simpa [htables] using hsome)
        outstanding := ?_
        began := hw.began
        expired := by simp
        marked := by simp
        sound := ⟨hmarked, hw.sound⟩ }
    intro u session hs hdeadline
    rw [htables] at hs
    exact (hw.outstanding u session hs hdeadline).cons _ (by simp)
  · exact hw.move rfl hw.began (by simp) (by simp)

end Steps

section Runs

variable {times : String → ProbeTimes}
variable {s s' : WatchedPool} {l : WatchedLabel}

/-- The watchdog's own step. -/
theorem Watching.step
    {a : WatchedAnswer} {f : WatchdogFrame}
    (hw : Watching times s.shared f)
    (hok : ActsOnCurrent times s a (.inr f)) :
    Watching times (f.step times s.shared a).1 (f.step times s.shared a).2 := by
  cases f with
  | sleep =>
      have hmove : Watching times s.shared (.values s.shared.now) :=
        hw.move rfl le_rfl (by simp) (by simp)
      refine hmove.shrink rfl rfl le_rfl fun u session hs => ⟨session, ?_, rfl⟩
      exact AuthStore.of_sweepShutdownSessions hs
  | values now =>
      simp only [WatchdogFrame.step]
      exact hw.move rfl hw.began (by simp) (by simp)
  | each now todo =>
      cases todo with
      | nil =>
          simp only [WatchdogFrame.step]
          exact hw.move rfl (Nat.zero_le _) (by simp) (by simp)
      | cons c todo =>
          simp only [WatchdogFrame.step]
          split
          · exact hw.move rfl hw.began (by simp) (by simp)
          · rename_i hresponsive
            split
            · rename_i hexpired
              simp only [SessionCopy.expired, Bool.and_eq_true, decide_eq_true_eq]
                at hexpired
              refine hw.move rfl hw.began ?_ (by simp)
              rintro now' c' todo' heq
              cases heq
              exact hexpired.1
            · rename_i hexpired
              split
              · rename_i hdue
                obtain ⟨hcurrent, hfits⟩ :=
                  hok (by simp [SessionCopy.probes, hresponsive, hexpired, hdue])
                exact hw.probe hdue hcurrent hfits
              · exact hw.move rfl hw.began (by simp) (by simp)
  | mark now c todo => exact hw.mark hok
  | kill now c todo => exact hw.kill hok
  | probe now c todo => exact hw.sent hok

/-- The watchdog is the first task, and the only one of its kind. -/
def Watches (times : String → ProbeTimes) (s : WatchedPool) : Prop :=
  ∃ f rest, s.threads = [.inr f] :: rest ∧
    (∀ t ∈ rest, ∀ g ∈ t, ∃ c, g = .inl c) ∧ Watching times s.shared f

/-- What a connection leaves behind belongs to connections. -/
theorem inl_of_connectionStep
    (times : String → ProbeTimes)
    {w : Watched} {a : ConnectionAnswer} {f : ConnectionFrame}
    {o : Outcome Watched WatchedFrame} {rest : List WatchedFrame}
    (h : connectionStep w a f = some o)
    (hrest : ∀ g ∈ rest, ∃ c, g = .inl c) :
    (∀ g ∈ (watched times).unwind o.next rest, ∃ c, g = .inl c) ∧
      ∀ t ∈ o.spawned, ∀ g ∈ t, ∃ c, g = .inl c := by
  obtain ⟨o', -, rfl⟩ := Option.map_eq_some_iff.mp h
  have hmap (fs : List ConnectionFrame) :
      ∀ g ∈ fs.map (Sum.inl : ConnectionFrame → WatchedFrame), ∃ c, g = .inl c := by
    intro g hg
    obtain ⟨c, -, rfl⟩ := List.mem_map.mp hg
    exact ⟨c, rfl⟩
  refine ⟨?_, ?_⟩
  · intro g hg
    rcases mem_unwind hg with hg | hg
    · cases hnext : o'.next with
      | none => simp [hnext] at hg
      | some fs => exact hmap fs g (by simpa [hnext] using hg)
    · exact hrest g hg
  · intro t ht
    obtain ⟨fs, -, rfl⟩ := List.mem_map.mp ht
    exact hmap fs

theorem Watches.fire
    (hs : Watches times s)
    (hok : OnRun (ActsOnCurrent times) s l)
    (h : (watched times).fire s l = some s') :
    Watches times s' := by
  obtain ⟨f, rest, hthreads, hinl, hw⟩ := hs
  cases l with
  | run i a =>
      obtain ⟨g, below, o, hi, ho, rfl⟩ := fire_run_cases h
      have hokg : ActsOnCurrent times s a g := hok.top hi
      rw [hthreads] at hi ⊢
      cases i with
      | zero =>
          obtain ⟨rfl, rfl⟩ : Sum.inr f = g ∧ [] = below := by
            simpa using hi
          obtain rfl := Option.some.inj ho
          exact ⟨(f.step times s.shared a).2, rest, by
            simp [Program.unwind, Outcome.thenRun], hinl, hw.step hokg⟩
      | succ j =>
          have hj : rest[j]? = some (g :: below) := hi
          have hmem : g :: below ∈ rest := List.mem_of_getElem? hj
          obtain ⟨c, rfl⟩ := hinl _ hmem g (List.mem_cons_self ..)
          obtain ⟨hunwind, hspawned⟩ := inl_of_connectionStep times ho
            fun g hg => hinl _ hmem g (List.mem_cons_of_mem _ hg)
          refine ⟨f, rest.set j ((watched times).unwind o.next below) ++ o.spawned,
            by simp, ?_, hw.connection ho⟩
          intro t ht
          rcases List.mem_append.mp ht with ht | ht
          · rcases List.mem_or_eq_of_mem_set ht with ht | rfl
            · exact hinl t ht
            · exact hunwind
          · exact hspawned t ht
  | world ev =>
      obtain ⟨r, hr, rfl⟩ := fire_world_cases h
      obtain rfl := Option.some.inj hr
      refine ⟨f, rest ++ ev.starts s.shared, by simp [hthreads], ?_, ?_⟩
      · intro t ht
        rcases List.mem_append.mp ht with ht | ht
        · exact hinl t ht
        · unfold WatchedEvent.starts at ht
          split at ht
          · obtain ⟨fs, -, rfl⟩ := List.mem_map.mp ht
            intro g hg
            obtain ⟨c, -, rfl⟩ := List.mem_map.mp hg
            exact ⟨c, rfl⟩
          · cases ht
      · cases ev with
        | tick ms =>
            exact hw.shrink rfl rfl (Nat.le_add_right ..) fun u session hs =>
              ⟨session, hs, rfl⟩
        | _ =>
            exact hw.shrink rfl rfl le_rfl fun u session hs => ⟨session, hs, rfl⟩

theorem watches_boot : Watches times bootWatched := by
  refine ⟨.sleep, [], rfl, by simp, ?_⟩
  refine
    { past := by simp [bootWatched]
      lastHeard := by simp [bootWatched]
      outstanding := by simp [bootWatched]
      began := Nat.zero_le _
      expired := by simp
      marked := by simp
      sound := trivial }

end Runs

/-- **Main theorem.**  In every run whose watchdog acts on current copies, every
verdict on record is sound. -/
theorem verdicts_sound
    (defaults : ProbeTimes)
    (manifests : String → Option ProbeTimes)
    {s : WatchedPool}
    (hs : Reachable (watched (probeTimes defaults manifests))
      (OnRun (ActsOnCurrent (probeTimes defaults manifests))) bootWatched s) :
    VerdictsSound (probeTimes defaults manifests) s.shared.log := by
  obtain ⟨f, rest, -, -, hw⟩ := hs.invariant watches_boot Watches.fire
  exact hw.sound

/-- Half a minute of silence, and a quarter of one to answer. -/
def halfMinute : ProbeTimes where
  interval := 30
  response := 15

/-- A module connects by PIN, falls silent and is given up; its queue takes the
probe, or does not. -/
def fallsSilent (queued : Bool) : List WatchedLabel :=
  .world (.pinConnect "bot" "u1") :: List.replicate 6 (.run 1 {}) ++
  .world (.tick 30000) ::
    List.replicate 5 (.run 0 { order := ["u1"], queued }) ++
  .world (.tick 15000) ::
    List.replicate 5 (.run 0 { order := ["u1"] })

theorem verdicts_sound_fallsSilent :
    ∃ s, (watched (probeTimes halfMinute fun _ => none)).exec bootWatched
        (fallsSilent true) = some s ∧
      s.shared.log = [.killed "u1" 1, .marked "u1" 1, .queued "u1" 1,
        .probed "u1" "bot" 30000, .heard "u1" 0] ∧
      VerdictsSound (probeTimes halfMinute fun _ => none) s.shared.log := by
  refine ⟨_, rfl, by decide, ?_⟩
  exact verdicts_sound halfMinute (fun _ => none)
    (reachable_of_allSteps (fallsSilent true) .start (by decide) rfl)

/-- A module whose queue is full is given up for not answering a probe that it
was never sent. -/
theorem marked_unprobed :
    ¬ ∀ (defaults : ProbeTimes) (manifests : String → Option ProbeTimes)
        (ls : List WatchedLabel) (s : WatchedPool),
      (watched (probeTimes defaults manifests)).exec bootWatched ls = some s →
      VerdictsSound (probeTimes defaults manifests) s.shared.log := by
  intro h
  have hsound := h halfMinute (fun _ => none) (fallsSilent false) _ rfl
  obtain ⟨-, ⟨since, name, time, before, hlog, -, -, hqueued⟩, -⟩ :
      VerdictsSound (probeTimes halfMinute fun _ => none)
        [.killed "u1" 1, .marked "u1" 1, .probed "u1" "bot" 30000,
          .heard "u1" 0] := hsound
  have hmem : WatchEvent.queued "u1" 1 ∈
      [.probed "u1" "bot" 30000, .heard "u1" 0] := by
    rw [hlog]
    exact List.mem_append_left _ hqueued
  exact absurd hmem (by decide)

end CockatielEngine
