import CockatielEngine.Pipeline.Successors

/-!
# Pipeline: what is tracked was sent

An ack is tracked after the send it answers to, and what a sweep drains and
sends again was tracked before.

**Main result.**  Every entry of the ack table, and every entry a sweep still
works on, belongs to a module that was sent the message.
-/

namespace CockatielEngine

open TaskPool

/-- The module was sent the message, in whatever stage. -/
def WasSent (log : List Event) (uuid7 moduleName : String) : Prop :=
  ∃ stage container, Event.sent uuid7 stage moduleName container ∈ log

namespace Frame

/-- The sends a frame knows to have happened. -/
def knowsSent : Frame → List (String × String)
  | .fanout (.track fo moduleName _) => [(fo.uuid7, moduleName)]
  | .inProcess (.track uuid7 moduleName _) => [(uuid7, moduleName)]
  | .sweep (.next sw) => sw.todo.map fun x => (x.1.uuid7, x.1.moduleName)
  | .sweep (.resendLoad sw entry _) =>
      (entry.uuid7, entry.moduleName) ::
        sw.todo.map fun x => (x.1.uuid7, x.1.moduleName)
  | .sweep (.resendSend sw entry _ _) =>
      (entry.uuid7, entry.moduleName) ::
        sw.todo.map fun x => (x.1.uuid7, x.1.moduleName)
  | .sweep (.resendTrack sw entry) =>
      (entry.uuid7, entry.moduleName) ::
        sw.todo.map fun x => (x.1.uuid7, x.1.moduleName)
  | _ => []

end Frame

/-- Every pending ack answers to a send. -/
def EntriesSent (e : Engine) : Prop :=
  ∀ x ∈ e.ackTracker.pending, WasSent e.log x.uuid7 x.moduleName

/-- The sends that a frame knows of did happen. -/
def KnowsRightly (e : Engine) (f : Frame) : Prop :=
  ∀ d ∈ f.knowsSent, WasSent e.log d.1 d.2

section Steps

variable {e : Engine} {a : Answer} {f g : Frame}

theorem WasSent.mono
    {log log' : List Event} {uuid7 moduleName : String}
    (h : WasSent log uuid7 moduleName)
    (hsub : ∀ ev ∈ log, ev ∈ log') :
    WasSent log' uuid7 moduleName := by
  obtain ⟨stage, container, hmem⟩ := h
  exact ⟨stage, container, hsub _ hmem⟩

/-- The log only grows. -/
theorem mem_log_step (f : Frame) :
    ∀ ev ∈ e.log, ev ∈ (f.step e a).shared.log := by
  obtain ⟨evs, hlog, -⟩ := f.records e a
  intro ev hev
  rw [hlog]
  exact List.mem_append_right _ hev

/-- A frame tracks what it knows to be sent. -/
theorem mem_knowsSent_of_tracks
    {now : Nat} {y : PendingAck}
    (h : f.tracks now = some y) :
    (y.uuid7, y.moduleName) ∈ f.knowsSent := by
  cases f with
  | fanout f =>
      cases f <;> simp only [Frame.tracks, Option.some.injEq, reduceCtorEq] at h
      subst h
      simp [Frame.knowsSent]
  | inProcess f =>
      cases f <;> simp only [Frame.tracks, Option.some.injEq, reduceCtorEq] at h
      subst h
      simp [Frame.knowsSent]
  | sweep f =>
      cases f <;> simp only [Frame.tracks, Option.some.injEq, reduceCtorEq] at h
      subst h
      simp [Frame.knowsSent, AckTracker.freshEntry]
  | _ => simp [Frame.tracks] at h

/-- Pending acks go on answering to sends. -/
theorem EntriesSent.step
    (he : EntriesSent e)
    (hf : KnowsRightly e f) :
    EntriesSent (f.step e a).shared := by
  intro y hy
  refine WasSent.mono ?_ (mem_log_step f)
  rcases Frame.mem_pending_step e a hy with ⟨x, hx, rfl | rfl | ⟨-, rfl⟩⟩ | htracks
  · exact he _ hx
  · exact he x hx
  · exact he x hx
  · exact hf _ (mem_knowsSent_of_tracks htracks)

/-- The timeout path of an entry knows no more than the sweep did. -/
theorem knowsSent_of_expires
    {sw : Sweep} {entry : PendingAck} {still : Bool}
    (h : Expires sw entry still g) :
    ∀ d ∈ g.knowsSent, d ∈ sw.todo.map fun x => (x.1.uuid7, x.1.moduleName) := by
  intro d hd
  rcases h.shape with ⟨sw', rfl, htodo⟩ | ⟨_, rfl⟩ | rfl | ⟨_, rfl⟩ | rfl
  · simpa [Frame.knowsSent, htodo] using hd
  all_goals simp [Frame.knowsSent] at hd

/-- What a new frame knows to be sent was known before, is tracked, or has just
been sent. -/
theorem knowsSent_of_new
    (hg : g ∈ (f.step e a).new) :
    ∀ d ∈ g.knowsSent,
      d ∈ f.knowsSent ∨
      (∃ x ∈ e.ackTracker.pending, d = (x.uuid7, x.moduleName)) ∨
      WasSent (f.step e a).shared.log d.1 d.2 := by
  intro d hd
  cases Frame.leads hg with
  | @fanout_track fo moduleName _ hpermitted hsent =>
      obtain rfl := List.mem_singleton.mp hd
      refine Or.inr (Or.inr ⟨fo.stage, fo.container, ?_⟩)
      simp [Frame.step, FanoutFrame.step, hpermitted, hsent, Engine.logged]
  | @inProcess_track uuid7 state moduleName _ _ hpermitted hsent =>
      obtain rfl := List.mem_singleton.mp hd
      refine Or.inr (Or.inr ⟨.inProcess, state.inProcessContainer uuid7, ?_⟩)
      simp [Frame.step, InProcessFrame.step, hpermitted, hsent, Engine.logged]
  | sweep_first htodo =>
      obtain ⟨x, hx, rfl⟩ := List.mem_map.mp hd
      rw [htodo, SweepFrame.mem_drained_iff] at hx
      exact Or.inr (Or.inl
        ⟨x.1, ((AckTracker.mem_checkTimeouts_iff ..).mp hx).1, rfl⟩)
  | sweep_resendLoad htodo _ =>
      exact Or.inl (by simpa [Frame.knowsSent, htodo] using hd)
  | sweep_expire htodo _ hexp =>
      have hmem := knowsSent_of_expires hexp d hd
      refine Or.inl ?_
      simp only [Frame.knowsSent, htodo, List.map_cons]
      exact List.mem_cons_of_mem _ hmem
  | sweep_gone _ hexp =>
      exact Or.inl (List.mem_cons_of_mem _ (knowsSent_of_expires hexp d hd))
  | sweep_unsent _ hexp =>
      exact Or.inl (List.mem_cons_of_mem _ (knowsSent_of_expires hexp d hd))
  | sweep_resendSend _ => exact Or.inl hd
  | sweep_resendTrack _ => exact Or.inl hd
  | sweep_resent => exact Or.inl (List.mem_cons_of_mem _ hd)
  | @fanout_nobody fo _ =>
      cases hstage : fo.stage <;>
        simp [FanoutFrame.nobody, hstage, Frame.knowsSent] at hd
  | @replay_hold _ point _ =>
      cases point <;> simp [replayHold, Frame.knowsSent] at hd
  | _ => simp_all [Frame.knowsSent]

/-- No event of the world starts a frame that knows of a send. -/
theorem knowsSent_of_opens
    {ev : WorldEvent}
    (h : Opens ev g) :
    g.knowsSent = [] := by
  cases h <;> rfl

end Steps

section Runs

/-- What the frames know, and what the ack table holds, stays right. -/
theorem sentBefore_outline :
    ProofOutline engine (fun _ _ => True) EntriesSent KnowsRightly where
  run := by
    intro s i a f rest o hs _ hi ho
    obtain rfl := engine_step_eq ho
    have hf : KnowsRightly s.shared f :=
      hs.2 f (mem_frames_of_getElem? hi (List.mem_cons_self ..))
    refine ⟨hs.1.step hf, ?_, ?_⟩
    · intro g hg d hd
      rcases knowsSent_of_new hg d hd with hknown | ⟨x, hx, rfl⟩ | hsent
      · exact (hf d hknown).mono (mem_log_step f)
      · exact (hs.1 x hx).mono (mem_log_step f)
      · exact hsent
    · exact fun g _ hg d hd => (hg d hd).mono (mem_log_step f)
  world := by
    intro s ev r hs _ hr
    obtain rfl := engine_event_eq hr
    have hlog : (ev.effect s.shared).log = s.shared.log := by cases ev <;> rfl
    have hacks : (ev.effect s.shared).ackTracker = s.shared.ackTracker := by
      cases ev <;> rfl
    refine ⟨?_, ?_, ?_⟩
    · intro x hx
      rw [hacks] at hx
      rw [hlog]
      exact hs.1 x hx
    · intro g hg d hd
      rw [knowsSent_of_opens (opens_of_mem hg)] at hd
      cases hd
    · intro g _ hg d hd
      rw [hlog]
      exact hg d hd

/-- **Main theorem.**  In every state of every run, what the ack table holds and
what a sweep works on was sent before. -/
theorem sent_before
    {e : Engine}
    (hacks : e.ackTracker = .new)
    {ok : EnginePool → EngineLabel → Prop}
    {s : EnginePool}
    (hs : Reachable engine ok (boot e) s) :
    Annotated EntriesSent KnowsRightly s := by
  refine sentBefore_outline.annotated ⟨?_, ?_⟩
    (hs.mono fun _ _ _ => trivial)
  · intro x hx
    simp [boot, hacks, AckTracker.new] at hx
  · intro f hf
    simp [boot, Pool.frames] at hf

end Runs

end CockatielEngine
