import CockatielEngine.Pipeline.Aside

/-!
# Pipeline: a pause delays

The same moves of the world, once with the pauses, the blocks and the resumes among
them and once without.  Where the gate holds a message, the run without it has gone
on; what it has done is what the replay of the hold is going to do.

**Main result.**  The dispatches of a message in the run with the pauses are the
first of those in the run without them, and all of them when the message is not
held.
-/

namespace CockatielEngine

open TaskPool

section Defs

variable (u : String)

/-- The world pauses, blocks or resumes the engine. -/
def WorldEvent.movesGate : WorldEvent → Bool
  | .boot => true
  | .operator _ => true
  | .dependencyDown _ => true
  | .dependencyUp _ => true
  | _ => false

/-- The configuration and the registry stay as they are, and a reply to the message
is one to a dispatch it has outstanding. -/
def AnswersDispatches (e : Engine) : WorldEvent → Prop
  | .setConfig _ => False
  | .setRegistry _ => False
  | .reply r => r.uuid7 = u → (r.stage, r.moduleName) ∈ e.ackTracker.owed u
  | _ => True

/-- No audit flag and no audit decision reaches the message while it is held. -/
def NoAuditWhileHeld (e : Engine) : WorldEvent → Prop
  | .auditFlag v _ => v = u → holdsOf u e.pauseState.held = []
  | .auditDecision v _ => v = u → holdsOf u e.pauseState.held = []
  | _ => True

instance (e : Engine) (ev : WorldEvent) : Decidable (AnswersDispatches u e ev) :=
  match ev with
  | .setConfig _ | .setRegistry _ => inferInstanceAs (Decidable False)
  | .reply r =>
      inferInstanceAs (Decidable (r.uuid7 = u →
        (r.stage, r.moduleName) ∈ e.ackTracker.owed u))
  | .tick _ | .ingest _ | .recover | .receipt _ _ | .sweep | .boot | .operator _
  | .dependencyDown _ | .dependencyUp _ | .auditFlag _ _ | .auditDecision _ _ =>
      inferInstanceAs (Decidable True)

instance (e : Engine) (ev : WorldEvent) : Decidable (NoAuditWhileHeld u e ev) :=
  match ev with
  | .auditFlag v _ | .auditDecision v _ =>
      inferInstanceAs (Decidable (v = u → holdsOf u e.pauseState.held = []))
  | .setConfig _ | .setRegistry _ | .reply _ | .tick _ | .ingest _ | .recover
  | .receipt _ _ | .sweep | .boot | .operator _ | .dependencyDown _
  | .dependencyUp _ =>
      inferInstanceAs (Decidable True)

/-- The message with the holds, in the run that pauses and in the one that does
not: alike, or held where the other has gone on from alike. -/
inductive Behind (world : Frame → Answer) (e plain : Engine) : List HoldPoint → Prop
  | level :
      AlikeFor u e plain →
      Tidy u e →
      Behind world e plain []
  | held {point : HoldPoint} {before after : Engine} :
      AlikeFor u e before →
      Waits u e →
      before.pauseState.isGated = false →
      Returns engine world before [replayHold u point] after →
      AlikeFor u after plain →
      Behind world e plain [point]

/-- A handler of the message at the same frame in both runs, before any hold. -/
structure Abreast (world : Frame → Answer) (plain plain' e : Engine) (f : Frame) :
    Prop where
  about : f.about = some u
  tidy : TidyAt u e f
  held : holdsOf u e.pauseState.held = []
  alike : AlikeFor u e plain
  opened : plain.pauseState.isGated = false
  now : f.timed = true → e.now = plain.now
  returns : Returns engine world plain [f] plain'

end Defs

section Handlers

variable {u v : String} {world : Frame → Answer} {held : List HoldPoint}
variable {e e' plain plain' : Engine} {f : Frame}

/-- A message is held at one point at most. -/
theorem Behind.length_le (h : Behind u world e plain held) : held.length ≤ 1 := by
  cases h <;> simp

theorem Behind.paused
    (h : Behind u world e plain held)
    (halike : AlikeFor u e' e) :
    Behind u world e' plain held := by
  cases h with
  | level hlevel htidy => exact .level (halike.trans hlevel) (htidy.alike halike.symm)
  | held hbefore hwaits hopen hreturns hafter =>
      exact .held (halike.trans hbefore) (hwaits.alike halike.symm) hopen hreturns hafter

theorem Behind.unpaused
    (h : Behind u world e plain held)
    (halike : AlikeFor u plain' plain) :
    Behind u world e plain' held := by
  cases h with
  | level hlevel htidy => exact .level (hlevel.trans halike.symm) htidy
  | held hbefore hwaits hopen hreturns hafter =>
      exact .held hbefore hwaits hopen hreturns (hafter.trans halike.symm)

/-- What happens beside the message in either run. -/
theorem Behind.beside
    (h : Behind u world e plain (holdsOf u e.pauseState.held))
    (haside : Aside u e e')
    (haside' : Aside u plain plain') :
    Behind u world e' plain' (holdsOf u e'.pauseState.held) := by
  rw [haside.holds]
  exact (h.paused haside.alike).unpaused haside'.alike

/-- The run without the pause has the message claimed where the other holds it. -/
theorem Behind.claimed
    (h : Behind u world e plain held)
    (hheld : held ≠ []) :
    Claimed u e ∧ Claimed u plain := by
  cases h with
  | level => exact absurd rfl hheld
  | @held point before _ hbefore hwaits _ hreturns hafter =>
      have hat : Waits u before := hwaits.alike hbefore
      have htidy : TidyAt u before (replayHold u point) := by cases point <;> exact hat
      have hclaimed := (returns_tidy hreturns about_replayHold htidy).2
        (by cases point <;> rfl)
      exact ⟨hwaits.claimed, hclaimed.alike hafter⟩

theorem Behind.waits
    (h : Behind u world e plain held)
    (hheld : held ≠ []) :
    Waits u e := by
  cases h with
  | level => exact absurd rfl hheld
  | held _ hwaits => exact hwaits

/-- The row of the message is there in both runs or in neither. -/
theorem Behind.isSome_row (h : Behind u world e plain held) :
    (e.timeline.row? u).isSome = (plain.timeline.row? u).isSome := by
  cases held with
  | nil =>
      cases h with
      | level halike _ => exact halike.isSome_row
  | cons point rest =>
      obtain ⟨hclaimed, hclaimed'⟩ := h.claimed (by simp)
      rw [hclaimed.row, hclaimed'.row]

/-- What recovery passes over in one run it passes over in the other. -/
theorem Behind.passedOver
    (h : Behind u world e plain held)
    (hpassed : PassedOver u e) :
    PassedOver u plain := by
  cases held with
  | nil =>
      cases h with
      | level halike _ => exact hpassed.alike halike
  | cons point rest => exact (h.claimed (by simp)).2.state

/-- Where the gate lets it through, the handler does the same in both runs. -/
theorem Abreast.through
    {fs : List Frame}
    (h : Abreast u world plain plain' e f)
    (hthrough : f.hold.isSome = true → e.pauseState.isGated = false)
    (hnext : (f.step e (world f)).next = some fs) :
    fs = [] ∧ Behind u world (f.step e (world f)).shared plain'
        (holdsOf u (f.step e (world f)).shared.pauseState.held) ∨
      ∃ g, fs = [g] ∧ ∃ p, Abreast u world p plain' (f.step e (world f)).shared g := by
  obtain ⟨o, fs', hstep, -, hnext', hrest⟩ := Returns.cons_iff.mp h.returns
  obtain rfl := engine_step_eq hstep
  obtain ⟨hsame, halike⟩ :=
    h.alike.step (a := world f) h.about (fun hhold => ⟨hthrough hhold, h.opened⟩) h.now
  obtain rfl := Option.some.inj (hnext.symm.trans (hsame.trans hnext'))
  obtain ⟨hleaves, hends⟩ := leavesTidy_step h.about h.tidy fs hnext
  have hheld : holdsOf u (f.step e (world f)).shared.pauseState.held = [] := by
    rw [pauseState_of_open (a := world f) h.about hthrough]
    exact h.held
  rcases next_of_about h.about hnext with rfl | ⟨g, hg, rfl⟩
  · obtain rfl := Returns.nil_iff.mp hrest
    rw [hheld]
    exact Or.inl ⟨rfl, .level halike (hends rfl).1⟩
  · refine Or.inr ⟨g, rfl, (f.step plain (world f)).shared, ?_⟩
    exact
      { about := about_new h.about hg
        tidy := hleaves g (List.mem_singleton_self _)
        held := hheld
        alike := halike
        opened := (gate_of_about (u := u) h.about).1.trans h.opened
        now := fun htimed => by
          simpa [Engine.now] using h.now (timed_new h.about hg htimed)
        returns := hrest }

/-- Where the gate holds it, the message stays behind. -/
theorem Abreast.stopped
    {point : HoldPoint}
    (h : Abreast u world plain plain' e (replayHold u point))
    (hgated : e.pauseState.isGated = true) :
    ((replayHold u point).step e (world (replayHold u point))).next = some [] ∧
      Behind u world ((replayHold u point).step e (world (replayHold u point))).shared
        plain' (holdsOf u ((replayHold u point).step e
          (world (replayHold u point))).shared.pauseState.held) := by
  have hwaits : Waits u e := by cases point <;> exact h.tidy
  have halike := h.alike
  rw [step_replayHold hgated]
  refine ⟨rfl, ?_⟩
  simp only [shared_go, holdsOf_insertHeld, if_true]
  exact .held
    ⟨halike.config, halike.registry, halike.state, halike.row, halike.owed,
      halike.dispatches⟩
    ⟨hwaits.owed, hwaits.claimed.row, hwaits.claimed.state⟩ h.opened h.returns (.refl _)

/-- A handler of the message in both runs, the gate open in the one that does not
pause: where it comes to the gate, the message stays behind. -/
theorem Abreast.behind
    (hstart : Abreast u world plain plain' e f)
    (h : Returns engine world e [f] e') :
    Behind u world e' plain' (holdsOf u e'.pauseState.held) := by
  refine h.solo (fun s g => ∃ p, Abreast u world p plain' s g)
    (fun s => Behind u world s plain' (holdsOf u s.pauseState.held)) ?_ ⟨plain, hstart⟩
  rintro s g o fs ⟨p, hg⟩ hstep hnext
  obtain rfl := engine_step_eq hstep
  cases hhold : g.hold with
  | none => exact hg.through (by simp [hhold]) hnext
  | some x =>
      cases hgate : s.pauseState.isGated with
      | false => exact hg.through (fun _ => hgate) hnext
      | true =>
          obtain ⟨w, point⟩ := x
          obtain rfl := eq_replayHold hhold
          obtain rfl : w = u := Option.some.inj (about_replayHold.symm.trans hg.about)
          obtain ⟨hnone, hbehind⟩ := hg.stopped hgate
          exact Or.inl ⟨Option.some.inj (hnext.symm.trans hnone), hbehind⟩

end Handlers

section Loops

variable {u v : String} {world : Frame → Answer} {e e' plain plain' : Engine}

/-- The replay of the message's hold catches up. -/
theorem Behind.replayed
    {point : HoldPoint}
    (h : Behind u world e plain [point])
    (hreplay : Returns engine world e [replayHold u point] e')
    (hheld : holdsOf u e.pauseState.held = []) :
    Behind u world e' plain (holdsOf u e'.pauseState.held) := by
  cases h with
  | held hbefore hwaits hopen hreturns hafter =>
      have htidy : TidyAt u e (replayHold u point) := by cases point <;> exact hwaits
      have hstart : Abreast u world _ _ e (replayHold u point) :=
        ⟨about_replayHold, htidy, hheld, hbefore, hopen, by simp [timed_replayHold],
          hreturns⟩
      exact (hstart.behind hreplay).unpaused hafter.symm

/-- The replay goes through the holds one after the other. -/
theorem behind_replayNext
    (hdb : ∀ f, (world f).dbOk = true)
    {held : List (String × HoldPoint)}
    (h : Settles engine world NoTimeout e [[.resume (.replayNext held)]] e')
    (hbehind : Behind u world e plain
      (holdsOf u held ++ holdsOf u e.pauseState.held)) :
    Behind u world e' plain (holdsOf u e'.pauseState.held) := by
  induction held generalizing e with
  | nil =>
      obtain rfl := settles_end e rfl h
      exact hbehind
  | cons x held ih =>
      obtain ⟨v, point⟩ := x
      have h := settles_last e [replayHold v point, .resume (.replayNext held)] rfl h
      obtain ⟨e₁, hreplay, h⟩ := settles_call hdb about_replayHold
        (by intro msg; cases point <;> simp [replayHold]) h
      refine ih h ?_
      rw [holdsOf_cons] at hbehind
      split at hbehind
      · rename_i hv
        subst hv
        have hrest : holdsOf v held = [] ∧ holdsOf v e.pauseState.held = [] := by
          have hone := hbehind.length_le
          refine List.append_eq_nil_iff.mp (List.length_eq_zero_iff.mp ?_)
          simpa using hone
        rw [hrest.1] at hbehind ⊢
        rw [hrest.2] at hbehind
        exact hbehind.replayed hreplay hrest.2
      · rename_i hv
        have haside := returns_aside hreplay about_replayHold hv
        rw [haside.holds]
        exact hbehind.paused haside.alike

/-- `resume`: the clocks are restarted, nothing has expired, and what was held is
replayed. -/
theorem behind_resume
    (hdb : ∀ f, (world f).dbOk = true)
    {told : Bool}
    (h : Settles engine world NoTimeout e [[.gate (.resume told)]] e')
    (hbehind : Behind u world e plain (holdsOf u e.pauseState.held)) :
    Behind u world e' plain (holdsOf u e'.pauseState.held) := by
  let opened : Engine :=
    { e with
      pauseState := e.pauseState.resume.2
      ackTracker := e.ackTracker.restartClocks e.now }
  have hopened : AlikeFor u opened e := ⟨rfl, rfl, rfl, rfl, owed_restartClocks, rfl⟩
  have h := settles_last _ [.resume .restartClocks, .sweep .start,
    .resume (.spawnReplay e.pauseState.held)] rfl h
  have h := (settles_go opened [] rfl h).2
  have h := settles_sweep h
  obtain ⟨o, ho, -, h⟩ := Settles.cons_iff.mp h
  obtain rfl := engine_step_eq ho
  have h := Settles.done_iff.mp h
  simp only [Frame.step, ResumeFrame.step, List.nil_append] at h
  split at h
  · rename_i hnone
    obtain rfl := Settles.nil_iff.mp h
    rw [List.isEmpty_iff.mp hnone] at hbehind
    exact hbehind.paused hopened
  · refine behind_replayNext hdb h ?_
    simpa [opened] using hbehind.paused hopened

/-- What keeps the holds leaves the message where it is. -/
theorem Behind.gateMoved
    (hbehind : Behind u world e plain (holdsOf u e.pauseState.held))
    {s : PauseState}
    (hs : s.held = e.pauseState.held) :
    Behind u world { e with pauseState := s } plain (holdsOf u s.held) := by
  rw [hs]
  exact hbehind.paused ⟨rfl, rfl, rfl, rfl, rfl, rfl⟩

/-- A caller of the gate that does not resume keeps the holds. -/
theorem behind_gate_keeps
    {t : GateTask}
    (h : Settles engine world NoTimeout e [[.gate t]] e')
    (hbehind : Behind u world e plain (holdsOf u e.pauseState.held))
    (hstep : (t.step e.pauseState).1.held = e.pauseState.held)
    (hends : gateStep e t = go { e with pauseState := (t.step e.pauseState).1 } []) :
    Behind u world e' plain (holdsOf u e'.pauseState.held) := by
  obtain rfl := settles_end (f := .gate t) _ hends h
  exact hbehind.gateMoved hstep

/-- A pause, a block or a resume. -/
theorem behind_gate
    (hdb : ∀ f, (world f).dbOk = true)
    {t : GateTask}
    (h : Settles engine world NoTimeout e [[.gate t]] e')
    (hbehind : Behind u world e plain (holdsOf u e.pauseState.held)) :
    Behind u world e' plain (holdsOf u e'.pauseState.held) := by
  have hkeeps {t : GateTask} (ht : t = .pause ∨ t = .deferPause ∨ t = .deferResume)
      (h : Settles engine world NoTimeout e [[.gate t]] e') :
      Behind u world e' plain (holdsOf u e'.pauseState.held) := by
    rcases ht with rfl | rfl | rfl
    · exact behind_gate_keeps h hbehind (PauseState.held_pause _) rfl
    · exact behind_gate_keeps h hbehind rfl rfl
    · exact behind_gate_keeps h hbehind rfl rfl
  cases t with
  | pause => exact hkeeps (Or.inl rfl) h
  | deferPause => exact hkeeps (Or.inr (Or.inl rfl)) h
  | deferResume => exact hkeeps (Or.inr (Or.inr rfl)) h
  | resume told => exact behind_resume hdb h hbehind
  | setPaused paused =>
      have h := settles_last e [.gate (GateTask.ofRequest paused e.pauseState.blocked)]
        rfl h
      cases hblocked : e.pauseState.blocked with
      | none =>
          rw [hblocked] at h
          cases paused with
          | true => exact hkeeps (Or.inl rfl) h
          | false => exact behind_resume hdb h hbehind
      | some reason =>
          rw [hblocked] at h
          cases paused with
          | true => exact hkeeps (Or.inr (Or.inl rfl)) h
          | false => exact hkeeps (Or.inr (Or.inr rfl)) h
  | setBlock reason =>
      exact behind_gate_keeps h hbehind (PauseState.held_setBlock _ _) rfl
  | clearBlock reason =>
      have hheld : (e.pauseState.clearBlock reason).2.held = e.pauseState.held := by
        unfold PauseState.clearBlock
        split <;> rfl
      have hcleared := hbehind.gateMoved hheld
      have h := settles_last _ _ rfl h
      simp only [GateTask.step] at h
      split at h
      · exact behind_resume hdb h hcleared
      · obtain rfl := Settles.nil_iff.mp (Settles.done_iff.mp h)
        exact hcleared

/-- Recovery of a message that neither run has in flight. -/
theorem behind_taken
    (hdb : ∀ f, (world f).dbOk = true)
    {uuids uuids' : List String} {msg : QueuedMessage}
    (h : Settles engine world NoTimeout e [[.recovery (.drainNext uuids)]] e')
    (hplain :
      Settles engine world NoTimeout plain [[.recovery (.drainNext uuids')]] plain')
    (hmem : u ∈ uuids)
    (hmem' : u ∈ uuids')
    (hstate : e.pipelineStates u = none)
    (hload : e.timeline.loadQueuedMessage u = some msg)
    (halike : AlikeFor u e plain)
    (htidy : Tidy u e)
    (hheld : holdsOf u e.pauseState.held = [])
    (hopen : plain.pauseState.isGated = false) :
    Behind u world e' plain' (holdsOf u e'.pauseState.held) ∧
      plain'.pauseState.isGated = false := by
  obtain ⟨e₁, e₂, hbefore, htaken, hafter⟩ :=
    settles_drainNext_taken hdb h hmem hstate hload
  obtain ⟨p₁, p₂, hbefore', htaken', hafter'⟩ :=
    settles_drainNext_taken hdb hplain hmem' (halike.state ▸ hstate)
      (halike.loadQueuedMessage ▸ hload)
  have hat : TidyAt u e₁ (.recovery (.insertState u msg)) := by
    refine ⟨?_, ?_⟩
    · rw [hbefore.alike.owed]
      by_contra howed
      simp [(htidy.claimed howed).state hstate] at hload
    · obtain ⟨row, hrow, -⟩ :=
        Option.bind_eq_some_iff.mp (hbefore.alike.loadQueuedMessage.trans hload)
      simp [hrow]
  have hopen₁ : p₁.pauseState.isGated = false := hbefore'.gate.trans hopen
  have hstart : Abreast u world p₁ p₂ e₁ (.recovery (.insertState u msg)) :=
    { about := rfl
      tidy := hat
      held := hbefore.holds.trans hheld
      alike := (hbefore.alike.trans halike).trans hbefore'.alike.symm
      opened := hopen₁
      now := by simp [Frame.timed]
      returns := htaken' }
  have hboth := hstart.behind htaken
  have hpassed : PassedOver u e₂ := ((returns_tidy htaken rfl hat).2 rfl).state
  have hrest := hafter' (hboth.passedOver hpassed)
  exact ⟨hboth.beside (hafter hpassed) hrest,
    hrest.gate.trans ((returns_gate htaken' rfl).trans hopen₁)⟩

/-- Recovery in both runs. -/
theorem behind_drainQueued
    (hdb : ∀ f, (world f).dbOk = true)
    (h : Settles engine world NoTimeout e [[.recovery .drainQueued]] e')
    (hplain : Settles engine world NoTimeout plain [[.recovery .drainQueued]] plain')
    (hbehind : Behind u world e plain (holdsOf u e.pauseState.held))
    (hopen : plain.pauseState.isGated = false) :
    Behind u world e' plain' (holdsOf u e'.pauseState.held) ∧
      plain'.pauseState.isGated = false := by
  have hstart (e : Engine) :
      (Frame.recovery .drainQueued).step e (world (.recovery .drainQueued)) =
        go e [.recovery (.drainNext e.timeline.getQueuedUuids)] := by
    simp [Frame.step, RecoveryFrame.step, hdb]
  have h := settles_last _ _ (hstart e) h
  have hplain := settles_last _ _ (hstart plain) hplain
  by_cases hpassed : PassedOver u e
  · have haside := aside_drainNext hdb hplain fun _ => hbehind.passedOver hpassed
    exact ⟨hbehind.beside (aside_drainNext hdb h fun _ => hpassed) haside,
      haside.gate.trans hopen⟩
  · obtain ⟨hstate, hload⟩ := Classical.not_imp.mp hpassed
    obtain ⟨msg, hload⟩ := Option.ne_none_iff_exists'.mp hload
    have hheld : holdsOf u e.pauseState.held = [] := by
      by_contra hheld
      exact hpassed (hbehind.claimed hheld).1.state
    rw [hheld] at hbehind
    cases hbehind with
    | level halike htidy =>
        exact behind_taken hdb h hplain (mem_getQueuedUuids_of_load hload)
          (mem_getQueuedUuids_of_load (halike.loadQueuedMessage ▸ hload)) hstate hload
          halike htidy hheld hopen

end Loops

section Events

variable {u v : String} {world : Frame → Answer} {e e' plain plain' : Engine} {f : Frame}

/-- The same handler in both runs. -/
theorem behind_returns
    (h : Returns engine world e [f] e')
    (hplain : Returns engine world plain [f] plain')
    (hf : f.about = some v)
    (hbehind : Behind u world e plain (holdsOf u e.pauseState.held))
    (hopen : plain.pauseState.isGated = false)
    (hnow : e.now = plain.now)
    (hfree : v = u → holdsOf u e.pauseState.held = [])
    (htidy : v = u → Tidy u e → TidyAt u e f) :
    Behind u world e' plain' (holdsOf u e'.pauseState.held) ∧
      plain'.pauseState.isGated = false := by
  refine ⟨?_, (returns_gate hplain hf).trans hopen⟩
  by_cases hv : v = u
  · have hheld := hfree hv
    rw [hheld] at hbehind
    cases hbehind with
    | level halike hrest =>
        have hstart : Abreast u world _ _ e f :=
          ⟨hv ▸ hf, htidy hv hrest, hheld, halike, hopen, fun _ => hnow, hplain⟩
        exact hstart.behind h
  · exact hbehind.beside (returns_aside h hf hv) (returns_aside hplain hf hv)

/-- The ingest of a message in both runs. -/
theorem behind_ingest
    (hdb : ∀ f, (world f).dbOk = true)
    {msg : PipelineMessage}
    (h : Settles engine world NoTimeout e [[.ingest (.insertEvent msg)]] e')
    (hplain : Settles engine world NoTimeout plain [[.ingest (.insertEvent msg)]] plain')
    (hbehind : Behind u world e plain (holdsOf u e.pauseState.held))
    (hopen : plain.pauseState.isGated = false)
    (hnow : e.now = plain.now) :
    Behind u world e' plain' (holdsOf u e'.pauseState.held) ∧
      plain'.pauseState.isGated = false := by
  by_cases hu : msg.uuid7 = u
  · have hrows := hbehind.isSome_row
    rw [← hu] at hrows
    rcases settles_insertEvent hdb h with ⟨hrow, rfl⟩ | ⟨hrow, hcall⟩
    · rcases settles_insertEvent hdb hplain with ⟨-, rfl⟩ | ⟨hrow', -⟩
      · exact ⟨hbehind, hopen⟩
      · simp [hrow, hrow'] at hrows
    · rcases settles_insertEvent hdb hplain with ⟨hrow', -⟩ | ⟨-, hcall'⟩
      · simp [hrow, hrow'] at hrows
      · refine behind_returns hcall hcall' rfl hbehind hopen hnow (fun _ => ?_)
          fun _ => id
        by_contra hheld
        exact absurd (hbehind.waits hheld).claimed.row (by simp [← hu, hrow])
  · have haside {e e' : Engine}
        (h : Settles engine world NoTimeout e [[.ingest (.insertEvent msg)]] e') :
        Aside u e e' := by
      rcases settles_insertEvent hdb h with ⟨-, rfl⟩ | ⟨-, hcall⟩
      · exact .refl _
      · exact returns_aside hcall rfl hu
    exact ⟨hbehind.beside (haside h) (haside hplain), (haside hplain).gate.trans hopen⟩

/-- A receipt answers no dispatch and makes none. -/
theorem alike_receipt (e : Engine) (v moduleName : String) :
    AlikeFor u ((ReplyFrame.receipt v moduleName).step e).shared e :=
  ⟨rfl, rfl, rfl, rfl, owed_markReceipt, by
    simp [ReplyFrame.step, Engine.dispatches, Engine.logged, Event.dispatch]⟩

/-- One move of the world in both runs, handled to the end. -/
theorem behind_event
    (hdb : ∀ f, (world f).dbOk = true)
    {ev : WorldEvent}
    (hev : ev.movesGate = false)
    (hanswers : AnswersDispatches u e ev)
    (haudit : NoAuditWhileHeld u e ev)
    (h : Settles engine world NoTimeout (ev.effect e) ev.starts e')
    (hplain : Settles engine world NoTimeout (ev.effect plain) ev.starts plain')
    (hbehind : Behind u world e plain (holdsOf u e.pauseState.held))
    (hopen : plain.pauseState.isGated = false)
    (hnow : e.now = plain.now) :
    Behind u world e' plain' (holdsOf u e'.pauseState.held) ∧
      plain'.pauseState.isGated = false := by
  have hstill (hnone : ev.starts = []) (halike : ∀ e, AlikeFor u (ev.effect e) e)
      (hgate : ∀ e, (ev.effect e).pauseState = e.pauseState) :
      Behind u world e' plain' (holdsOf u e'.pauseState.held) ∧
        plain'.pauseState.isGated = false := by
    rw [hnone] at h hplain
    obtain rfl := Settles.nil_iff.mp h
    obtain rfl := Settles.nil_iff.mp hplain
    rw [hgate, hgate]
    exact ⟨(hbehind.paused (halike e)).unpaused (halike plain), hopen⟩
  cases ev with
  | tick ms => exact hstill rfl (fun e => ⟨rfl, rfl, rfl, rfl, rfl, rfl⟩) fun e => rfl
  | setConfig => exact hanswers.elim
  | setRegistry => exact hanswers.elim
  | ingest msg => exact behind_ingest hdb h hplain hbehind hopen hnow
  | recover => exact behind_drainQueued hdb h hplain hbehind hopen
  | reply r =>
      by_cases huuid : r.uuid7 = ""
      · exact hstill (if_pos huuid) (fun e => .refl e) fun e => rfl
      · simp only [WorldEvent.starts, if_neg huuid] at h hplain
        refine behind_returns (returns_of_settles hdb rfl (by simp) h)
          (returns_of_settles hdb rfl (by simp) hplain) rfl hbehind hopen hnow
          (fun hu => ?_) fun _ => id
        by_contra hheld
        have howed := hanswers hu
        rw [(hbehind.waits hheld).owed] at howed
        exact List.not_mem_nil howed
  | receipt v moduleName =>
      by_cases huuid : v = ""
      · exact hstill (if_pos huuid) (fun e => .refl e) fun e => rfl
      · simp only [WorldEvent.starts, if_neg huuid] at h hplain
        obtain rfl := settles_end _ rfl h
        obtain rfl := settles_end _ rfl hplain
        exact ⟨(hbehind.paused (alike_receipt e v moduleName)).unpaused
          (alike_receipt plain v moduleName), hopen⟩
  | sweep =>
      obtain rfl := Settles.nil_iff.mp (Settles.done_iff.mp (settles_sweep h))
      obtain rfl := Settles.nil_iff.mp (Settles.done_iff.mp (settles_sweep hplain))
      exact ⟨hbehind, hopen⟩
  | auditFlag v reason =>
      exact behind_returns (returns_of_settles hdb rfl (by simp) h)
        (returns_of_settles hdb rfl (by simp) hplain) rfl hbehind hopen hnow haudit
        fun _ => id
  | auditDecision v approve =>
      exact behind_returns (returns_of_settles hdb rfl (by simp) h)
        (returns_of_settles hdb rfl (by simp) hplain) rfl hbehind hopen hnow haudit
        fun _ => id
  | _ => cases hev

theorem now_effect (ev : WorldEvent) (hnow : e.now = plain.now) :
    (ev.effect e).now = (ev.effect plain).now := by
  cases ev with
  | tick ms => simpa [WorldEvent.effect, Engine.now, Clock.now] using hnow
  | _ => exact hnow

/-- A move of the gate, which the other run does not see. -/
theorem behind_movesGate
    (hdb : ∀ f, (world f).dbOk = true)
    {ev : WorldEvent}
    (hev : ev.movesGate = true)
    (h : Settles engine world NoTimeout (ev.effect e) ev.starts e')
    (hbehind : Behind u world e plain (holdsOf u e.pauseState.held)) :
    Behind u world e' plain (holdsOf u e'.pauseState.held) := by
  cases ev with
  | boot => exact behind_gate hdb h hbehind
  | operator paused => exact behind_gate hdb h hbehind
  | dependencyDown reason => exact behind_gate hdb h hbehind
  | dependencyUp reason => exact behind_gate hdb h hbehind
  | _ => cases hev

/-- The two runs, move by move. -/
theorem behind_handles
    (hdb : ∀ f, (world f).dbOk = true)
    {evs : List WorldEvent}
    (h : Handles engine world NoTimeout
      (fun e ev => AnswersDispatches u e ev ∧ NoAuditWhileHeld u e ev) e evs e')
    (hplain : Handles engine world NoTimeout (fun _ _ => True) plain
      (evs.filter fun ev => !ev.movesGate) plain')
    (hbehind : Behind u world e plain (holdsOf u e.pauseState.held))
    (hopen : plain.pauseState.isGated = false)
    (hnow : e.now = plain.now) :
    Behind u world e' plain' (holdsOf u e'.pauseState.held) := by
  induction evs generalizing e plain with
  | nil =>
      obtain rfl := h
      obtain rfl := hplain
      exact hbehind
  | cons ev evs ih =>
      obtain ⟨⟨hanswers, haudit⟩, r, e₁, hr, hsettles, hrest⟩ := h
      obtain rfl := engine_event_eq hr
      have hclock := congrArg Clock.now (clock_of_settles hsettles)
      cases hev : ev.movesGate with
      | true =>
          rw [List.filter_cons_of_neg (by simp [hev])] at hplain
          refine ih hrest hplain (behind_movesGate hdb hev hsettles hbehind) hopen ?_
          refine hclock.trans (Eq.trans ?_ hnow)
          cases ev <;> first | rfl | cases hev
      | false =>
          rw [List.filter_cons_of_pos (by simp [hev])] at hplain
          obtain ⟨-, r, p₁, hr, hsettles', hrest'⟩ := hplain
          obtain rfl := engine_event_eq hr
          obtain ⟨hbehind', hopen'⟩ := behind_event hdb hev hanswers haudit hsettles
            hsettles' hbehind hopen hnow
          refine ih hrest hrest' hbehind' hopen' ?_
          exact hclock.trans ((now_effect ev hnow).trans
            (congrArg Clock.now (clock_of_settles hsettles')).symm)

theorem Behind.dispatches
    {held : List HoldPoint}
    (h : Behind u world e plain held) :
    e.dispatches u <+: plain.dispatches u ∧
      (held = [] → e.dispatches u = plain.dispatches u) := by
  cases h with
  | level halike _ =>
      exact ⟨halike.dispatches ▸ List.prefix_refl _, fun _ => halike.dispatches⟩
  | held hbefore _ _ hreturns hafter =>
      refine ⟨?_, by simp⟩
      rw [hbefore.dispatches, ← hafter.dispatches]
      exact dispatches_prefix_of_returns hreturns

end Events

/-- With handlers that run to their end, no timeout and no failure of the database,
the dispatches of a message in a run with pauses, blocks and resumes are the first
of those in the run without them, and all of them when the message is not held. -/
theorem pause_only_delays
    {u : String} {world : Frame → Answer} {e paused plain : Engine}
    {evs : List WorldEvent}
    (hdb : ∀ f, (world f).dbOk = true)
    (hopen : e.pauseState.isGated = false)
    (hheld : holdsOf u e.pauseState.held = [])
    (howed : e.ackTracker.owed u = [])
    (hpaused : Handles engine world NoTimeout
      (fun e ev => AnswersDispatches u e ev ∧ NoAuditWhileHeld u e ev) e evs paused)
    (hplain : Handles engine world NoTimeout (fun _ _ => True) e
      (evs.filter fun ev => !ev.movesGate) plain) :
    paused.dispatches u <+: plain.dispatches u ∧
      (holdsOf u paused.pauseState.held = [] →
        paused.dispatches u = plain.dispatches u) := by
  have hstart : Behind u world e e (holdsOf u e.pauseState.held) := by
    rw [hheld]
    exact .level (.refl e) ⟨howed ▸ OneStage.nil, fun hne => absurd howed hne⟩
  exact (behind_handles hdb hpaused hplain hstart hopen rfl).dispatches

/-- One module before the stage that comes one at a time, and one in it. -/
def oneOfEachStage : Engine :=
  { config := { preProcessModules := ["a"], inProcessModules := ["b"] } }

/-- The message is held on its way to the in-process stage, and goes on from there
when the operator resumes. -/
def pausedBetweenStages : List WorldEvent :=
  [.ingest { uuid7 := "m", rawMessage := "hi" }, .operator true,
    .reply { uuid7 := "m", moduleName := "a", stage := .preProcess }, .operator false]

/-- The message is flagged for audit while it is held. -/
def flaggedWhileHeld : List WorldEvent :=
  [.ingest { uuid7 := "m", rawMessage := "hi" }, .operator true,
    .reply { uuid7 := "m", moduleName := "a", stage := .preProcess },
    .auditFlag "m" "look at it", .operator false]

theorem pause_only_delays_pausedBetweenStages :
    ∃ paused plain,
      Handles engine (fun _ => {}) NoTimeout
        (fun e ev => AnswersDispatches "m" e ev ∧ NoAuditWhileHeld "m" e ev)
        oneOfEachStage pausedBetweenStages paused ∧
      Handles engine (fun _ => {}) NoTimeout (fun _ _ => True) oneOfEachStage
        (pausedBetweenStages.filter fun ev => !ev.movesGate) plain ∧
      paused.dispatches "m" = [(.preProcess, "a"), (.inProcess, "b")] ∧
      paused.dispatches "m" = plain.dispatches "m" := by
  obtain ⟨paused, hpaused, hend⟩ := Option.map_eq_some_iff.mp
    (by decide +kernel :
      (handle engine (fun _ => {}) NoTimeout
          (fun e ev => AnswersDispatches "m" e ev ∧ NoAuditWhileHeld "m" e ev) 20
          oneOfEachStage pausedBetweenStages).map
        (fun e => (e.dispatches "m", holdsOf "m" e.pauseState.held)) =
          some ([(.preProcess, "a"), (.inProcess, "b")], []))
  obtain ⟨plain, hplain⟩ := Option.isSome_iff_exists.mp
    (by decide +kernel :
      (handle engine (fun _ => {}) NoTimeout (fun _ _ => True) 20 oneOfEachStage
        (pausedBetweenStages.filter fun ev => !ev.movesGate)).isSome = true)
  obtain ⟨hdispatches, hheld⟩ := Prod.mk.inj hend
  have hruns := handles_of_handle hpaused
  have hruns' := handles_of_handle hplain
  exact ⟨paused, plain, hruns, hruns', hdispatches,
    (pause_only_delays (fun _ => rfl) rfl rfl rfl hruns hruns').2 hheld⟩

/-- An audit flag that comes while the message is held stops it where the run without
the pause has sent it on. -/
theorem flagged_while_held_differs :
    ¬ ∀ (u : String) (world : Frame → Answer) (e paused plain : Engine)
        (evs : List WorldEvent),
      (∀ f, (world f).dbOk = true) →
      e.pauseState.isGated = false →
      e.pauseState.held = [] →
      e.ackTracker = .new →
      (∀ reason, .dependencyUp reason ∉ evs) →
      Handles engine world NoTimeout (AnswersDispatches u) e evs paused →
      Handles engine world NoTimeout (fun _ _ => True) e
        (evs.filter fun ev => !ev.movesGate) plain →
      paused.pauseState.isGated = false →
      paused.pauseState.held = [] →
      paused.ackTracker.owed u = [] →
      paused.dispatches u = plain.dispatches u := by
  intro h
  obtain ⟨paused, hpaused, hend⟩ := Option.map_eq_some_iff.mp
    (by decide +kernel :
      (handle engine (fun _ => {}) NoTimeout (AnswersDispatches "m") 20
          oneOfEachStage flaggedWhileHeld).map
        (fun e => (e.dispatches "m", e.pauseState, e.ackTracker.owed "m")) =
          some ([(.preProcess, "a")], {}, []))
  obtain ⟨plain, hplain, hend'⟩ := Option.map_eq_some_iff.mp
    (by decide +kernel :
      (handle engine (fun _ => {}) NoTimeout (fun _ _ => True) 20 oneOfEachStage
          (flaggedWhileHeld.filter fun ev => !ev.movesGate)).map
        (fun e => e.dispatches "m") =
          some [(.preProcess, "a"), (.inProcess, "b")])
  obtain ⟨hdispatches, hgate, howed⟩ : paused.dispatches "m" = [(.preProcess, "a")] ∧
      paused.pauseState = {} ∧ paused.ackTracker.owed "m" = [] := by
    simpa using hend
  have hequal := h "m" (fun _ => {}) oneOfEachStage paused plain flaggedWhileHeld
    (fun _ => rfl) rfl rfl rfl (by simp [flaggedWhileHeld]) (handles_of_handle hpaused)
    (handles_of_handle hplain) (by rw [hgate]; rfl) (by rw [hgate]) howed
  rw [hdispatches, hend'] at hequal
  exact absurd hequal (by decide)

end CockatielEngine
