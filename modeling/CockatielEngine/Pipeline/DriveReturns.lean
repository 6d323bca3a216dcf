import CockatielEngine.Pipeline.SameFor

/-!
# Pipeline: what drives a message returns

A call that drives a message ends: a fanout has so many recipients, and each
module that the in-process stage skips is behind the message for good.  It fails
only where a database does.
-/

namespace CockatielEngine

open TaskPool

section Calls

variable {world : Frame → Answer} {e e' : Engine} {f : Frame} {rest : List Frame}

/-- The first step of a call of the engine. -/
theorem returns_cons
    {fs : List Frame}
    (hspawned : (f.step e (world f)).spawned = [])
    (hnext : (f.step e (world f)).next = some fs) :
    Returns engine world e (f :: rest) e' ↔
      Returns engine world (f.step e (world f)).shared (fs ++ rest) e' := by
  rw [Returns.cons_iff]
  constructor
  · rintro ⟨o, fs', hstep, -, hnext', hrest⟩
    obtain rfl := engine_step_eq hstep
    obtain rfl := Option.some.inj (hnext.symm.trans hnext')
    exact hrest
  · exact fun h => ⟨_, fs, rfl, hspawned, hnext, h⟩

/-- A call whose first step goes on with the frames `fs`. -/
theorem returns_go
    (e₁ : Engine) (fs : List Frame)
    (h : f.step e (world f) = go e₁ fs) :
    Returns engine world e (f :: rest) e' ↔ Returns engine world e₁ (fs ++ rest) e' := by
  have hnext : (f.step e (world f)).next = some fs := by rw [h]; rfl
  rw [returns_cons (by rw [h]; rfl) hnext, h, shared_go]

/-- A call whose first step fails does not return. -/
theorem not_returns_of_fail
    (h : f.step e (world f) = fail e) :
    ¬ Returns engine world e (f :: rest) e' := by
  rw [Returns.cons_iff]
  rintro ⟨o, fs, hstep, -, hnext, -⟩
  obtain rfl := engine_step_eq hstep
  simp [h, fail] at hnext

end Calls

section Termination

variable {world : Frame → Answer} {u : String} {e : Engine}

/-- A call returns when what its first step leaves returns. -/
theorem exists_returns
    {f : Frame} (e₁ : Engine) (fs : List Frame)
    (h : f.step e (world f) = go e₁ fs)
    (hrest : ∃ e', Returns engine world e₁ fs e') :
    ∃ e', Returns engine world e [f] e' := by
  obtain ⟨e', hrest⟩ := hrest
  exact ⟨e', (returns_go e₁ fs h).mpr (by rwa [List.append_nil])⟩

theorem exists_returns_nil :
    ∃ e', Returns engine world e [] e' :=
  ⟨e, Returns.nil_iff.mpr rfl⟩

/-- The end of a message returns. -/
theorem exists_returns_terminal
    (hdb : ∀ f, (world f).dbOk = true)
    (u : String) (ending : Ending) (e : Engine) :
    ∃ e', Returns engine world e [.terminal (.check u ending)] e' := by
  have hwrite (e₁ : Engine) (result : PipelineResult) :
      ∃ e', Returns engine world e₁ [.terminal (.write u ending result)] e' :=
    exists_returns _ [.terminal (.ack u)]
      (by simp only [Frame.step, TerminalFrame.step, hdb, if_true]; rfl)
      (exists_returns _ [] rfl exists_returns_nil)
  cases haudited : e.timeline.isAudited u with
  | true =>
      refine exists_returns e [.terminal (.snapshot u)]
        (by simp [Frame.step, TerminalFrame.step, hdb, haudited]) ?_
      exact exists_returns e _ rfl (exists_returns _ []
        (by simp only [Frame.step, TerminalFrame.step, hdb, if_true]; rfl)
        exists_returns_nil)
  | false =>
      refine exists_returns e [.terminal (.take u ending)]
        (by simp [Frame.step, TerminalFrame.step, hdb, haudited]) ?_
      cases hstate : e.pipelineStates u with
      | some state =>
          exact exists_returns (e.putState u none) _
            (by simp only [Frame.step, TerminalFrame.step, hstate]; rfl) (hwrite _ _)
      | none =>
          cases ending with
          | dropped reason =>
              exact exists_returns e []
                (by simp only [Frame.step, TerminalFrame.step, hstate]) exists_returns_nil
          | _ =>
              exact exists_returns e _
                (by simp only [Frame.step, TerminalFrame.step, hstate]; rfl) (hwrite _ _)

/-- A post-process fanout returns. -/
theorem exists_returns_fanout
    (hdb : ∀ f, (world f).dbOk = true)
    (todo : List String) (fo : Fanout) (hfo : fo.stage = .postProcess) (e : Engine) :
    ∃ e', Returns engine world e [.fanout (.send fo todo)] e' := by
  induction todo generalizing fo e with
  | nil =>
      cases hsent : fo.sentAny with
      | true =>
          exact exists_returns e [] (by simp [Frame.step, FanoutFrame.step, hsent])
            exists_returns_nil
      | false =>
          refine exists_returns (e.logged (.left fo.uuid7 fo.stage))
            [.terminal (.check fo.uuid7 .complete)]
            (by simp [Frame.step, FanoutFrame.step, hsent, FanoutFrame.nobody, hfo]) ?_
          exact exists_returns_terminal hdb ..
  | cons moduleName todo ih =>
      let answer := world (.fanout (.send fo (moduleName :: todo)))
      by_cases hsent : (answer.permitted && decide (answer.outcome = .sent)) = true
      · refine exists_returns
          (e.logged (.sent fo.uuid7 fo.stage moduleName fo.container))
          [.fanout (.track { fo with sentAny := true } moduleName todo)]
          (by simp only [Frame.step, FanoutFrame.step]; exact if_pos hsent) ?_
        exact exists_returns _ [.fanout (.send { fo with sentAny := true } todo)] rfl
          (ih { fo with sentAny := true } hfo _)
      · exact exists_returns e [.fanout (.send fo todo)]
          (by simp only [Frame.step, FanoutFrame.step]; exact if_neg hsent) (ih fo hfo e)

/-- The post-process stage returns. -/
theorem exists_returns_postProcess
    (hdb : ∀ f, (world f).dbOk = true)
    (u : String) (e : Engine) :
    ∃ e', Returns engine world e [.postProcess (.enter u)] e' := by
  cases hgate : e.pauseState.isGated with
  | true =>
      exact exists_returns _ []
        (by simp only [Frame.step, PostProcessFrame.step, PauseState.holdIfGated, hgate,
          if_true]; rfl) exists_returns_nil
  | false =>
      refine exists_returns e [.postProcess (.audit u)]
        (by simp [Frame.step, PostProcessFrame.step, PauseState.holdIfGated, hgate]) ?_
      cases haudited : e.timeline.isAudited u with
      | true =>
          exact exists_returns e []
            (by simp [Frame.step, PostProcessFrame.step, hdb, haudited])
            exists_returns_nil
      | false =>
          refine exists_returns e [.postProcess (.load u)]
            (by simp [Frame.step, PostProcessFrame.step, hdb, haudited]) ?_
          cases hstate : e.pipelineStates u with
          | none =>
              exact exists_returns e []
                (by simp [Frame.step, PostProcessFrame.step, hstate]) exists_returns_nil
          | some state =>
              refine exists_returns _ [.postProcess (.config u _)]
                (by simp only [Frame.step, PostProcessFrame.step, hstate]; rfl) ?_
              exact exists_returns _ _ rfl (exists_returns_fanout hdb _ _ rfl _)

/-- How far the message has come along the in-process chain. -/
def chainIndexOf (e : Engine) (u : String) : Nat :=
  (e.pipelineStates u).elim 0 (·.currentInProcessIndex)

/-- A dispatch returns, or the module is skipped. -/
theorem exists_returns_send
    {state : PipelineState} {moduleName : String} {ackTimeoutMs len : Nat}
    (hskip : ∃ e', Returns engine world e [.inProcess (.skip u len)] e') :
    ∃ e', Returns engine world e
      [.inProcess (.send u state moduleName ackTimeoutMs len)] e' := by
  let answer := world (.inProcess (.send u state moduleName ackTimeoutMs len))
  by_cases hsent : (answer.permitted && decide (answer.outcome = .sent)) = true
  · exact exists_returns
      (e.logged (.sent u .inProcess moduleName (state.inProcessContainer u)))
      [.inProcess (.track u moduleName ackTimeoutMs)]
      (by simp only [Frame.step, InProcessFrame.step]; exact if_pos hsent)
      (exists_returns _ [] rfl exists_returns_nil)
  · exact exists_returns e [.inProcess (.skip u len)]
      (by simp only [Frame.step, InProcessFrame.step]; exact if_neg hsent) hskip

/-- A skip returns when the next module's turn does. -/
theorem exists_returns_skip
    (hdb : ∀ f, (world f).dbOk = true)
    {state : PipelineState} {len : Nat}
    (hstate : e.pipelineStates u = some state)
    (hnext : state.currentInProcessIndex + 1 < len → ∀ e₂ : Engine,
      e₂.config = e.config → chainIndexOf e₂ u = state.currentInProcessIndex + 1 →
      ∃ e', Returns engine world e₂ [.inProcess (.enter u)] e') :
    ∃ e', Returns engine world e [.inProcess (.skip u len)] e' := by
  let next := state.currentInProcessIndex + 1
  let e₂ := e.putState u (some { state with currentInProcessIndex := next })
  have hstep : (Frame.inProcess (.skip u len)).step e (world (.inProcess (.skip u len))) =
      go e₂ (if len ≤ next then [.postProcess (.enter u)]
        else [.inProcess (.enter u)]) := by
    simp only [Frame.step, InProcessFrame.step, hstate, e₂, next]
  refine exists_returns e₂ _ hstep ?_
  split
  · exact exists_returns_postProcess hdb u e₂
  · rename_i hlast
    exact hnext (by omega) e₂ rfl (by simp [chainIndexOf, e₂, next, Engine.putState])

/-- The turn of the module that the message has come to returns. -/
theorem exists_returns_config
    (hdb : ∀ f, (world f).dbOk = true)
    {state : PipelineState}
    (hskip : state.currentInProcessIndex < e.config.inProcessModules.length →
      ∃ e', Returns engine world e
        [.inProcess (.skip u e.config.inProcessModules.length)] e') :
    ∃ e', Returns engine world e [.inProcess (.config u state)] e' := by
  cases hmodule : e.config.inProcessModules[state.currentInProcessIndex]? with
  | none =>
      exact exists_returns e [.postProcess (.enter u)]
        (by simp only [Frame.step, InProcessFrame.step, hmodule])
        (exists_returns_postProcess hdb u e)
  | some moduleName =>
      have hskip := hskip (List.getElem?_eq_some_iff.mp hmodule).1
      cases htarget : (commandRecipients state.parsedCommand e.commandRegistry
          e.config.inProcessModules).contains moduleName with
      | true =>
          exact exists_returns e _
            (by
              simp only [Frame.step, InProcessFrame.step, hmodule, htarget, if_true]
              rfl)
            (exists_returns_send hskip)
      | false =>
          exact exists_returns e [.inProcess (.skip u e.config.inProcessModules.length)]
            (by simp only [Frame.step, InProcessFrame.step, hmodule, htarget,
              Bool.false_eq_true, if_false]) hskip

/-- The in-process stage returns: each module that it skips is behind it. -/
theorem exists_returns_inProcess
    (hdb : ∀ f, (world f).dbOk = true)
    (n : Nat)
    (u : String)
    (e : Engine)
    (hn : e.config.inProcessModules.length ≤ chainIndexOf e u + n) :
    ∃ e', Returns engine world e [.inProcess (.enter u)] e' := by
  induction n using Nat.strong_induction_on generalizing e with | _ n ih =>
  cases hgate : e.pauseState.isGated with
  | true =>
      exact exists_returns _ []
        (by simp only [Frame.step, InProcessFrame.step, PauseState.holdIfGated, hgate,
          if_true]; rfl) exists_returns_nil
  | false =>
      refine exists_returns e [.inProcess (.audit u)]
        (by simp [Frame.step, InProcessFrame.step, PauseState.holdIfGated, hgate]) ?_
      cases haudited : e.timeline.isAudited u with
      | true =>
          exact exists_returns e []
            (by simp [Frame.step, InProcessFrame.step, hdb, haudited])
            exists_returns_nil
      | false =>
          refine exists_returns e [.inProcess (.load u)]
            (by simp [Frame.step, InProcessFrame.step, hdb, haudited]) ?_
          cases hstate : e.pipelineStates u with
          | none =>
              exact exists_returns e []
                (by simp [Frame.step, InProcessFrame.step, hstate]) exists_returns_nil
          | some state =>
              let state' : PipelineState := { state with stage := .inProcessing }
              have hput : (e.putState u (some state')).pipelineStates u = some state' :=
                by simp [Engine.putState]
              have hindex : chainIndexOf e u = state.currentInProcessIndex := by
                simp [chainIndexOf, hstate]
              refine exists_returns (e.putState u (some state'))
                [.inProcess (.config u state')]
                (by simp only [Frame.step, InProcessFrame.step, hstate]; rfl) ?_
              refine exists_returns_config hdb fun hlt => ?_
              refine exists_returns_skip hdb hput fun _ e₂ hconfig hnext => ?_
              have hlt : state.currentInProcessIndex < e.config.inProcessModules.length :=
                hlt
              have hnext : chainIndexOf e₂ u = state.currentInProcessIndex + 1 := hnext
              have hconfig : e₂.config = e.config := hconfig
              refine ih (n - 1) (by omega) e₂ ?_
              rw [hconfig, hnext]
              omega

/-- The look-up of the user returns, with a record or without. -/
theorem exists_returns_refresh
    (hdb : ∀ f, (world f).dbOk = true)
    (u : String) (e : Engine) :
    ∃ e', Returns engine world e [.advance (.refresh u)] e' := by
  have hpost (e : Engine) : ∃ e', Returns engine world e [.postProcess (.enter u)] e' :=
    exists_returns_postProcess hdb u e
  cases hstate : (e.pipelineStates u).filter (fun s => s.userUuid7 ≠ "") with
  | none =>
      exact exists_returns e _
        (by simp only [Frame.step, AdvanceFrame.step, hstate]) (hpost e)
  | some state =>
      cases hdata : (world (.advance (.refresh u))).userData with
      | none =>
          exact exists_returns e _
            (by simp only [Frame.step, AdvanceFrame.step, hstate, hdata]) (hpost e)
      | some userData =>
          exact exists_returns e _
            (by simp only [Frame.step, AdvanceFrame.step, hstate, hdata]; rfl)
            (exists_returns _ _ rfl (hpost _))

/-- The way out of a stage returns. -/
theorem exists_returns_advance
    (hdb : ∀ f, (world f).dbOk = true)
    (u : String) (len : Nat) (stage : Stage) (e : Engine) :
    ∃ e', Returns engine world e [SweepFrame.advanceFrame u len stage] e' := by
  have hinProcess (e : Engine) :
      ∃ e', Returns engine world e [.inProcess (.enter u)] e' :=
    exists_returns_inProcess hdb e.config.inProcessModules.length u e (by omega)
  cases stage with
  | preProcess => exact exists_returns _ _ rfl (hinProcess _)
  | postProcess => exact exists_returns_terminal hdb u .complete e
  | inProcess =>
      refine exists_returns _ [.advance (.nextIndex u len)] rfl ?_
      generalize (e.modifyState u _) = e₁
      cases hstate : e₁.pipelineStates u with
      | none =>
          exact exists_returns e₁ [] (by simp [Frame.step, AdvanceFrame.step, hstate])
            exists_returns_nil
      | some state =>
          refine exists_returns _ _
            (by simp only [Frame.step, AdvanceFrame.step, hstate]; rfl) ?_
          split
          · exact exists_returns_refresh hdb u _
          · exact hinProcess _

end Termination

end CockatielEngine
