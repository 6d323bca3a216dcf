import CockatielEngine.Pipeline.HandlerRuns
import CockatielEngine.Pipeline.InFlight

/-!
# Pipeline: what happens beside a message

The handlers of other messages, and a recovery that passes over this one, leave it
and its holds as they are; so does the gate, but that it holds what it does not let
through.
-/

namespace CockatielEngine

open TaskPool

section Defs

variable (u : String)

/-- The points at which the message is held. -/
def holdsOf (held : List (String × HoldPoint)) : List HoldPoint :=
  (held.filter (·.1 = u)).map (·.2)

/-- Between the two states nothing has happened to the message. -/
structure Aside (e e' : Engine) : Prop where
  alike : AlikeFor u e' e
  holds : holdsOf u e'.pauseState.held = holdsOf u e.pauseState.held
  gate : e'.pauseState.isGated = e.pauseState.isGated

end Defs

section Gate

variable {u v : String} {point : HoldPoint} {held : List (String × HoldPoint)}
variable {e e' : Engine} {a : Answer} {f : Frame} {world : Frame → Answer}

@[simp] theorem holdsOf_nil : holdsOf u [] = [] := rfl

theorem holdsOf_cons :
    holdsOf u ((v, point) :: held) =
      if v = u then point :: holdsOf u held else holdsOf u held := by
  unfold holdsOf
  split
  · rename_i hv
    simp [hv]
  · rename_i hv
    simp [hv]

/-- A message has one hold at most: a new one takes the place of the old. -/
theorem holdsOf_insertHeld :
    holdsOf u (PauseState.insertHeld held v point) =
      if v = u then [point] else holdsOf u held := by
  have hpart (p : String × HoldPoint → Bool) (b : Bool)
      (hp : ∀ h, h.1 = u → p h = b) :
      (held.filter p).filter (·.1 = u) = if b then held.filter (·.1 = u) else [] := by
    have hcongr : held.filter (fun h => decide (h.1 = u) && p h) =
        held.filter fun h => decide (h.1 = u) && b :=
      List.filter_congr fun h _ => by by_cases hu : h.1 = u <;> simp [hu, hp h]
    rw [List.filter_filter, hcongr]
    cases b <;> simp
  unfold holdsOf PauseState.insertHeld
  rw [List.filter_append, List.filter_cons]
  by_cases hv : v = u
  · subst hv
    rw [hpart _ false fun h hu => by simp [hu], hpart _ false fun h hu => by simp [hu]]
    simp
  · rcases lt_or_gt_of_ne hv with hlt | hlt
    · rw [hpart _ false fun h hu => decide_eq_false (hu ▸ lt_asymm hlt),
        hpart _ true fun h hu => decide_eq_true (hu ▸ hlt)]
      simp [hv]
    · rw [hpart _ true fun h hu => decide_eq_true (hu ▸ hlt),
        hpart _ false fun h hu => decide_eq_false (hu ▸ lt_asymm hlt)]
      simp [hv]

theorem eq_replayHold (h : f.hold = some (u, point)) : f = replayHold u point := by
  cases f with
  | broadcast f =>
      cases f <;> cases h
      rfl
  | inProcess f =>
      cases f <;> cases h
      rfl
  | postProcess f =>
      cases f <;> cases h
      rfl
  | _ => simp [Frame.hold] at h

theorem about_replayHold : (replayHold u point).about = some u := by
  cases point <;> rfl

theorem timed_replayHold : (replayHold u point).timed = false := by
  cases point <;> rfl

/-- What works on a message holds no other, and leaves the gate as it is. -/
theorem gate_of_about (hf : f.about = some v) :
    (f.step e a).shared.pauseState.isGated = e.pauseState.isGated ∧
      (v ≠ u → holdsOf u (f.step e a).shared.pauseState.held =
        holdsOf u e.pauseState.held) := by
  cases htouch : f.touchesGate with
  | false => rw [Frame.step_pauseState e a htouch]; exact ⟨rfl, fun _ => rfl⟩
  | true =>
      rcases Frame.touchesGate_cases htouch with ⟨w, point, hhold⟩ | ⟨t, rfl⟩
      · obtain rfl : w = v :=
          Option.some.inj ((eq_replayHold hhold ▸ about_replayHold).symm.trans hf)
        rw [Frame.step_pauseState_hold e a hhold]
        refine ⟨PauseState.isGated_holdIfGated _ _ _, fun hne => ?_⟩
        unfold PauseState.holdIfGated
        split
        · simp [holdsOf_insertHeld, hne]
        · rfl
      · cases hf

/-- What the gate lets through leaves the pause state. -/
theorem pauseState_of_open
    (hf : f.about = some v)
    (hopen : f.hold.isSome = true → e.pauseState.isGated = false) :
    (f.step e a).shared.pauseState = e.pauseState := by
  cases htouch : f.touchesGate with
  | false => exact Frame.step_pauseState e a htouch
  | true =>
      rcases Frame.touchesGate_cases htouch with ⟨w, point, hhold⟩ | ⟨t, rfl⟩
      · rw [Frame.step_pauseState_hold e a hhold,
          PauseState.holdIfGated_of_open (hopen (by simp [hhold]))]
      · cases hf

/-- The closed gate holds the message at the dispatch it was about to make. -/
theorem step_replayHold
    (hgated : e.pauseState.isGated = true) :
    (replayHold u point).step e a =
      go { e with
             pauseState :=
               { e.pauseState with
                 held := PauseState.insertHeld e.pauseState.held u point } } [] := by
  cases point <;>
    simp [replayHold, Frame.step, BroadcastFrame.step, InProcessFrame.step,
      PostProcessFrame.step, PauseState.holdIfGated, hgated]

theorem Aside.refl (e : Engine) : Aside u e e :=
  ⟨.refl e, rfl, rfl⟩

theorem Aside.trans {e'' : Engine} (h : Aside u e e') (h' : Aside u e' e'') :
    Aside u e e'' :=
  ⟨h'.alike.trans h.alike, h'.holds.trans h.holds, h'.gate.trans h.gate⟩

/-- A handler of another message. -/
theorem returns_aside
    (h : Returns engine world e [f] e')
    (hf : f.about = some v)
    (hne : v ≠ u) :
    Aside u e e' := by
  refine h.invariant (fun g => g.about = some v) (Aside u e) ?_ (by simpa using hf)
    (.refl e)
  intro s g o fs hg haside hstep hnext
  obtain rfl := engine_step_eq hstep
  obtain ⟨hgate, hheld⟩ := gate_of_about (e := s) (a := world g) (u := u) hg
  refine ⟨fun g' hg' => about_new (e := s) (a := world g) hg ?_,
    haside.trans ⟨AlikeFor.other hg hne, hheld hne, hgate⟩⟩
  simp [Outcome.new, hnext, hg']

/-- A handler leaves the gate as it is. -/
theorem returns_gate
    (h : Returns engine world e [f] e')
    (hf : f.about = some v) :
    e'.pauseState.isGated = e.pauseState.isGated := by
  refine h.invariant (fun g => g.about = some v)
    (fun s => s.pauseState.isGated = e.pauseState.isGated) ?_ (by simpa using hf) rfl
  intro s g o fs hg hgate hstep hnext
  obtain rfl := engine_step_eq hstep
  refine ⟨fun g' hg' => about_new (e := s) (a := world g) hg ?_,
    (gate_of_about (u := v) hg).1.trans hgate⟩
  simp [Outcome.new, hnext, hg']

end Gate

section Recovery

variable {u : String} {world : Frame → Answer} {e e' : Engine}

/-- Recovery leaves a message alone that it passes over. -/
theorem returns_check_passed
    (hdb : ∀ f, (world f).dbOk = true)
    (h : Returns engine world e [.recovery (.check u)] e')
    (hpassed : PassedOver u e) :
    e' = e := by
  cases hstate : e.pipelineStates u with
  | some s =>
      rw [returns_go e [] (by simp [Frame.step, RecoveryFrame.step, hstate])] at h
      exact Returns.nil_iff.mp h
  | none =>
      rw [returns_go e [.recovery (.load u)]
        (by simp [Frame.step, RecoveryFrame.step, hstate])] at h
      rw [List.append_nil, returns_go e []
        (by simp [Frame.step, RecoveryFrame.step, hdb, hpassed hstate])] at h
      exact Returns.nil_iff.mp h

/-- The drain passes over a message. -/
theorem aside_drainNext
    (hdb : ∀ f, (world f).dbOk = true)
    {uuids : List String}
    (h : Settles engine world NoTimeout e [[.recovery (.drainNext uuids)]] e')
    (hpassed : u ∈ uuids → PassedOver u e) :
    Aside u e e' := by
  induction uuids generalizing e with
  | nil =>
      obtain rfl := settles_end e rfl h
      exact .refl _
  | cons v uuids ih =>
      obtain ⟨e₁, hcheck, hrest⟩ := settles_call (f := .recovery (.check v)) hdb rfl
        (by simp)
        (settles_last e [.recovery (.check v), .recovery (.drainNext uuids)] rfl h)
      by_cases hv : v = u
      · subst hv
        obtain rfl := returns_check_passed hdb hcheck (hpassed (List.mem_cons_self ..))
        exact ih hrest fun hmem => hpassed (List.mem_cons_of_mem _ hmem)
      · have haside := returns_aside hcheck rfl hv
        exact haside.trans (ih hrest fun hmem =>
          (hpassed (List.mem_cons_of_mem _ hmem)).alike haside.alike.symm)

/-- The drain comes to a message whose row it has read. -/
theorem settles_drainNext_of_mem
    (hdb : ∀ f, (world f).dbOk = true)
    {uuids : List String}
    (h : Settles engine world NoTimeout e [[.recovery (.drainNext uuids)]] e')
    (hmem : u ∈ uuids) :
    ∃ e₁ e₂ rest, Aside u e e₁ ∧ Returns engine world e₁ [.recovery (.check u)] e₂ ∧
      Settles engine world NoTimeout e₂ [[.recovery (.drainNext rest)]] e' := by
  induction uuids generalizing e with
  | nil => cases hmem
  | cons v uuids ih =>
      obtain ⟨e₁, hcheck, hrest⟩ := settles_call (f := .recovery (.check v)) hdb rfl
        (by simp)
        (settles_last e [.recovery (.check v), .recovery (.drainNext uuids)] rfl h)
      by_cases hv : v = u
      · subst hv
        exact ⟨e, e₁, uuids, .refl e, hcheck, hrest⟩
      · have haside := returns_aside hcheck rfl hv
        obtain ⟨e₂, e₃, rest, haside', hcheck', h'⟩ :=
          ih hrest ((List.mem_cons.mp hmem).resolve_left (Ne.symm hv))
        exact ⟨e₂, e₃, rest, haside.trans haside', hcheck', h'⟩

theorem mem_getQueuedUuids_of_load
    {t : Timeline} {msg : QueuedMessage}
    (h : t.loadQueuedMessage u = some msg) :
    u ∈ t.getQueuedUuids := by
  obtain ⟨row, hrow, hqueued⟩ := Option.bind_eq_some_iff.mp h
  obtain ⟨x, hfind, rfl⟩ := Option.map_eq_some_iff.mp hrow
  have hu : x.1 = u := by simpa using List.find?_some hfind
  have hstatus : x.2.pipelineStatus = .queued := by
    by_contra hne
    simp [hne] at hqueued
  rw [Timeline.getQueuedUuids, List.mem_insertionSort, ← hu]
  exact List.mem_map_of_mem (List.mem_filter.mpr
    ⟨List.mem_of_find?_eq_some hfind, by simpa using hstatus⟩)

/-- Recovery takes the message. -/
theorem returns_check_taken
    (hdb : ∀ f, (world f).dbOk = true)
    (h : Returns engine world e [.recovery (.check u)] e')
    {msg : QueuedMessage}
    (hstate : e.pipelineStates u = none)
    (hload : e.timeline.loadQueuedMessage u = some msg) :
    Returns engine world e [.recovery (.insertState u msg)] e' := by
  rw [returns_go e [.recovery (.load u)]
    (by simp [Frame.step, RecoveryFrame.step, hstate])] at h
  rwa [List.append_nil, returns_go e [.recovery (.insertState u msg)]
    (by simp [Frame.step, RecoveryFrame.step, hdb, hload]), List.append_nil] at h

/-- The drain takes a message that is stranded; then it passes over it. -/
theorem settles_drainNext_taken
    (hdb : ∀ f, (world f).dbOk = true)
    {uuids : List String} {msg : QueuedMessage}
    (h : Settles engine world NoTimeout e [[.recovery (.drainNext uuids)]] e')
    (hmem : u ∈ uuids)
    (hstate : e.pipelineStates u = none)
    (hload : e.timeline.loadQueuedMessage u = some msg) :
    ∃ e₁ e₂, Aside u e e₁ ∧
      Returns engine world e₁ [.recovery (.insertState u msg)] e₂ ∧
      (PassedOver u e₂ → Aside u e₂ e') := by
  obtain ⟨e₁, e₂, rest, haside, hcheck, hrest⟩ := settles_drainNext_of_mem hdb h hmem
  have htaken := returns_check_taken hdb hcheck (haside.alike.state.trans hstate)
    (haside.alike.loadQueuedMessage.trans hload)
  exact ⟨e₁, e₂, haside, htaken, fun hpassed =>
    aside_drainNext hdb hrest fun _ => hpassed⟩

end Recovery

end CockatielEngine
