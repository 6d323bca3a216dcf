import CockatielEngine.Concurrency.TaskPool

/-!
# Prompts: the table of routes

The engine's own prompts and those of the modules share one table, which maps a
prompt's id to whoever waits for its answer.  Ids come from whoever raises a
prompt, and every prompt shows its id to every module.

Beside the table the state keeps, as ghosts, what was raised, which prompts are
outstanding, which of them an answer has come for and which have got it.

**Main result.**  Over every interleaving, each outstanding prompt is routed to
its raiser, each answer that comes for one is delivered to its raiser or on its
way there, and none is delivered twice, exactly when no prompt is raised or
cleaned up under an id that another party's prompt is outstanding under, and
every module takes its answers.
-/

namespace CockatielEngine

open TaskPool

/-- Where the answer to a prompt goes: into the channel of a task of the engine,
or to the connection of the module that raised it. -/
inductive PromptSink where
  | engine (channel : Nat)
  | module (origin : String) (sender : Nat)
deriving DecidableEq, Repr

/-- The connection behind a sink. -/
def PromptSink.sender? : PromptSink → Option Nat
  | .engine _ => none
  | .module _ sender => some sender

/-- A prompt as it was raised. -/
structure RaisedPrompt where
  id : String
  raiser : PromptSink
deriving DecidableEq, Repr

/-- The channel of an engine prompt: its sending side may be dropped, and its
waiting side may have given up. -/
inductive OneShot where
  | waiting
  | sent (accepted : Bool)
  | dropped
  | expired
deriving DecidableEq, Repr

/-- How an engine prompt ends. -/
inductive PromptOutcome where
  | decided (accepted : Bool)
  | noUi
  | timedOut
deriving DecidableEq, Repr

/-- The table, the channels of the engine's prompts (one that has not been opened
is waiting), the connected modules and the senders whose connection is gone. -/
structure PromptState where
  routes : String → Option PromptSink := fun _ => none
  channels : Nat → OneShot := fun _ => .waiting
  nextChannel : Nat := 0
  moduleSenders : List (String × Nat) := []
  closed : List Nat := []
  outcomes : List (String × PromptOutcome) := []
  /-- The prompts shown so far: the connection and the prompt's id. -/
  shown : List (Nat × String) := []
  raised : List RaisedPrompt := []
  outstanding : List RaisedPrompt := []
  owed : List RaisedPrompt := []
  delivered : List RaisedPrompt := []

namespace PromptState

variable (e : PromptState)

/-- Nobody waits at the sink any more. -/
def Gone : PromptSink → Prop
  | .engine n => e.channels n = .expired
  | .module _ sender => sender ∈ e.closed

instance : DecidablePred e.Gone := fun sink => by
  cases sink <;> unfold Gone <;> infer_instance

/-- The channels after the sink under an id has been dropped. -/
def dropping (id : String) : Nat → OneShot :=
  match e.routes id with
  | some (.engine n) =>
      if e.channels n = .waiting then Function.update e.channels n .dropped
      else e.channels
  | _ => e.channels

/-- Insert a route; what was there is dropped. -/
def raise (id : String) (sink : PromptSink) : PromptState :=
  { e with
    channels := e.dropping id
    routes := Function.update e.routes id (some sink)
    raised := e.raised ++ [⟨id, sink⟩]
    outstanding := e.outstanding.filter (fun p => p ≠ ⟨id, sink⟩) ++
      if e.Gone sink then [] else [⟨id, sink⟩] }

/-- Take the route of an id out for an answer. -/
def take (id : String) : PromptState :=
  { e with
    routes := Function.update e.routes id none
    outstanding := e.outstanding.filter fun p => p.id ≠ id
    owed := e.owed ++ e.outstanding.filter fun p => p.id = id }

/-- The channel of a sink gets an answer. -/
def send (sink : PromptSink) (accepted : Bool) : Nat → OneShot :=
  match sink with
  | .engine n => Function.update e.channels n (.sent accepted)
  | .module _ _ => e.channels

/-- A module whose queue stays full loses the answer; an engine task always
takes it. -/
def takes (taken : Bool) : PromptSink → Bool
  | .engine _ => true
  | .module _ _ => taken

/-- Hand an answer over, unless nobody waits for it any more. -/
def deliver (p : RaisedPrompt) (accepted taken : Bool) : PromptState :=
  if e.Gone p.raiser ∨ takes taken p.raiser = false then e
  else
    { e with
      channels := e.send p.raiser accepted
      owed := e.owed.erase p
      delivered := e.delivered ++ [p] }

/-- An engine task stops waiting. -/
def expire (n : Nat) : PromptState :=
  { e with
    channels := Function.update e.channels n .expired
    outstanding := e.outstanding.filter fun p => p.raiser ≠ .engine n
    owed := e.owed.filter fun p => p.raiser ≠ .engine n }

/-- Remove whatever is under an id. -/
def remove (id : String) : PromptState :=
  { e with
    channels := e.dropping id
    routes := Function.update e.routes id none }

/-- The sender of a connection closes. -/
def close (sender : Nat) : PromptState :=
  { e with
    moduleSenders := e.moduleSenders.filter fun m => m.2 ≠ sender
    closed := sender :: e.closed
    outstanding := e.outstanding.filter fun p => p.raiser.sender? ≠ some sender
    owed := e.owed.filter fun p => p.raiser.sender? ≠ some sender }

/-- Drop the routes of the connections that are gone. -/
def retain : PromptState :=
  { e with
    routes := fun id => (e.routes id).filter fun sink =>
      decide (∀ sender ∈ sink.sender?, sender ∉ e.closed) }

end PromptState

/-- The three handlers at their steps: an engine prompt, a module's prompt and a
response; and what a connection does when it is gone. -/
inductive PromptFrame where
  | collect (id : String)
  | insert (id : String) (senders : List Nat)
  | send (id : String) (channel : Nat) (senders : List Nat)
  | wait (id : String) (channel : Nat)
  | remove (id : String) (outcome : PromptOutcome)
  | raise (origin : String) (sender : Nat) (id : String)
  | forward (origin id : String)
  | respond (id : String) (accepted : Bool)
  | deliver (p : RaisedPrompt) (accepted : Bool)
  | cleanup
deriving DecidableEq, Repr

/-- Whether the queue of the step's module took the container, and whether the
time of the step's prompt is up. -/
structure PromptAnswer where
  taken : Bool := true
  timedOut : Bool := false
deriving DecidableEq, Repr

inductive PromptEvent where
  | connect (name : String) (sender : Nat)
  | disconnect (sender : Nat)
  | ask (id : String)
  | prompt (origin : String) (sender : Nat) (id : String)
  | promptResponse (id : String) (accepted : Bool)
deriving DecidableEq, Repr

abbrev PromptPool := Pool PromptState PromptFrame
abbrev PromptLabel := Label PromptAnswer PromptEvent

namespace PromptFrame

/-- An engine prompt waits for its channel; the answer has precedence over the
time. -/
def waitStep (e : PromptState) (a : PromptAnswer) (id : String) (channel : Nat) :
    Option (Outcome PromptState PromptFrame) :=
  match e.channels channel with
  | .sent accepted => some (.thenRun e [.remove id (.decided accepted)])
  | .dropped => some (.thenRun e [.remove id .timedOut])
  | .waiting =>
      if a.timedOut then some (.thenRun (e.expire channel) [.remove id .timedOut])
      else none
  | .expired => none

def step (e : PromptState) (a : PromptAnswer) :
    PromptFrame → Option (Outcome PromptState PromptFrame)
  | .collect id =>
      if e.moduleSenders = [] then
        some (.thenRun { e with outcomes := e.outcomes ++ [(id, .noUi)] } [])
      else some (.thenRun e [.insert id (e.moduleSenders.map (·.2))])
  | .insert id senders =>
      some (.thenRun
        { e.raise id (.engine e.nextChannel) with nextChannel := e.nextChannel + 1 }
        [.send id e.nextChannel senders])
  | .send id channel [] => some (.thenRun e [.wait id channel])
  | .send id channel (sender :: senders) =>
      some (.thenRun
        { e with shown := e.shown ++ if a.taken then [(sender, id)] else [] }
        [.send id channel senders])
  | .wait id channel => waitStep e a id channel
  | .remove id outcome =>
      some (.thenRun { e.remove id with outcomes := e.outcomes ++ [(id, outcome)] } [])
  | .raise origin sender id =>
      some (.thenRun (e.raise id (.module origin sender)) [.forward origin id])
  | .forward origin id =>
      some (.thenRun
        { e with
          shown := e.shown ++
            (e.moduleSenders.filter fun m => m.1 ≠ origin).map fun m => (m.2, id) }
        [])
  | .respond id accepted =>
      match e.routes id with
      | none => some (.thenRun (e.take id) [])
      | some sink => some (.thenRun (e.take id) [.deliver ⟨id, sink⟩ accepted])
  | .deliver p accepted => some (.thenRun (e.deliver p accepted a.taken) [])
  | .cleanup => some (.thenRun e.retain [])

/-- The frame carries an answer to the prompt. -/
def carries (p : RaisedPrompt) : PromptFrame → Bool
  | .deliver q _ => q = p
  | _ => false

end PromptFrame

/-- The prompt handling as a program. -/
def promptHandling : Program PromptState PromptFrame PromptAnswer PromptEvent where
  step e f a := f.step e a
  catches _ := false
  event e
    | .connect name sender =>
        some ({ e with moduleSenders := (name, sender) :: e.moduleSenders }, [])
    | .disconnect sender => some (e.close sender, [[.cleanup]])
    | .ask id => some (e, [[.collect id]])
    | .prompt origin sender id => some (e, [[.raise origin sender id]])
    | .promptResponse id accepted => some (e, [[.respond id accepted]])

section Defs

/-- The answers to a prompt that are on their way. -/
def inFlight (s : PromptPool) (p : RaisedPrompt) : Nat :=
  s.total fun f => if f.carries p then 1 else 0

/-- Every outstanding prompt is routed to its raiser, every answer that came for
one is delivered or on its way, and nobody gets more answers than they raised
prompts under an id. -/
structure PromptsRouted (s : PromptPool) : Prop where
  routed : ∀ p ∈ s.shared.outstanding, s.shared.routes p.id = some p.raiser
  answered : ∀ p, s.shared.owed.count p ≤ inFlight s p
  once : ∀ p, s.shared.delivered.count p ≤ s.shared.raised.count p

/-- No prompt of somebody else is outstanding under the id. -/
def FreeFor (e : PromptState) (id : String) (sink : PromptSink) : Prop :=
  ∀ p ∈ e.outstanding, p.id = id → p.raiser = sink

/-- A prompt is raised under an id that nobody else's prompt is outstanding
under, cleaned up under one that no prompt is, and a module that is still
connected takes its answer. -/
def KeepsRoutes (s : PromptPool) (a : PromptAnswer) : PromptFrame → Prop
  | .insert id _ => FreeFor s.shared id (.engine s.shared.nextChannel)
  | .raise origin sender id => FreeFor s.shared id (.module origin sender)
  | .remove id _ => ∀ p ∈ s.shared.outstanding, p.id ≠ id
  | .deliver p _ => s.shared.Gone p.raiser ∨ PromptState.takes a.taken p.raiser = true
  | _ => True

instance (s : PromptPool) (a : PromptAnswer) (f : PromptFrame) :
    Decidable (KeepsRoutes s a f) := by
  cases f <;> unfold KeepsRoutes <;> try unfold FreeFor
  all_goals infer_instance

/-- The table, the prompts and the answers on their way agree. -/
structure Routing (e : PromptState) (inFlight : RaisedPrompt → Nat) : Prop where
  routed : ∀ p ∈ e.outstanding, e.routes p.id = some p.raiser
  known : ∀ id sink, e.routes id = some sink →
    e.Gone sink ∨ ⟨id, sink⟩ ∈ e.outstanding
  nodup : e.outstanding.Nodup
  present : ∀ p ∈ e.outstanding, ¬ e.Gone p.raiser
  owed : ∀ p, e.owed.count p = if e.Gone p.raiser then 0 else inFlight p
  once : ∀ p, e.delivered.count p + inFlight p +
    (if e.routes p.id = some p.raiser then 1 else 0) ≤ e.raised.count p

end Defs

section Gone

variable {e : PromptState} {id : String} {sink : PromptSink} {n : Nat}

theorem PromptState.dropping_eq_expired_iff :
    e.dropping id n = .expired ↔ e.channels n = .expired := by
  cases hroute : e.routes id with
  | none => simp only [PromptState.dropping, hroute]
  | some sink =>
      cases sink with
      | module origin sender => simp only [PromptState.dropping, hroute]
      | engine m =>
          simp only [PromptState.dropping, hroute]
          by_cases hwaiting : e.channels m = .waiting
          · by_cases hn : n = m
            · subst hn
              simp [hwaiting]
            · rw [if_pos hwaiting, Function.update_of_ne hn]
          · rw [if_neg hwaiting]

theorem PromptState.gone_raise {sink' : PromptSink} :
    (e.raise id sink').Gone sink ↔ e.Gone sink := by
  cases sink with
  | engine n => exact PromptState.dropping_eq_expired_iff
  | module origin sender => exact Iff.rfl

theorem PromptState.gone_remove :
    (e.remove id).Gone sink ↔ e.Gone sink := by
  cases sink with
  | engine n => exact PromptState.dropping_eq_expired_iff
  | module origin sender => exact Iff.rfl

/-- An answer that is handed over makes nobody go. -/
theorem PromptState.gone_deliver {p : RaisedPrompt} {accepted taken : Bool} :
    (e.deliver p accepted taken).Gone sink ↔ e.Gone sink := by
  unfold PromptState.deliver
  split
  · rfl
  · rename_i hhanded
    have hthere : ¬ e.Gone p.raiser := fun h => hhanded (Or.inl h)
    cases sink with
    | module origin sender => exact Iff.rfl
    | engine n =>
        change e.send p.raiser accepted n = .expired ↔ e.channels n = .expired
        cases hr : p.raiser with
        | module origin sender => rfl
        | engine m =>
            by_cases hn : n = m
            · subst hn
              have hlive : e.channels n ≠ .expired := by
                simpa [hr, PromptState.Gone] using hthere
              simp [PromptState.send, hlive]
            · simp [PromptState.send, Function.update_of_ne hn]

theorem PromptState.gone_expire :
    (e.expire n).Gone sink ↔ e.Gone sink ∨ sink = .engine n := by
  cases sink with
  | module origin sender => simp [PromptState.expire, PromptState.Gone]
  | engine m =>
      by_cases hm : m = n <;> simp [PromptState.expire, PromptState.Gone, hm]

theorem PromptState.gone_close {sender : Nat} :
    (e.close sender).Gone sink ↔ e.Gone sink ∨ sink.sender? = some sender := by
  cases sink with
  | engine m => simp [PromptState.close, PromptState.Gone, PromptSink.sender?]
  | module origin sender' =>
      simp [PromptState.close, PromptState.Gone, PromptSink.sender?, or_comm]

end Gone

namespace Routing

variable {e e' : PromptState} {inFlight inFlight' : RaisedPrompt → Nat}
variable {id : String} {sink : PromptSink}

/-- Raising a prompt under an id that is free for its raiser. -/
theorem raise
    (h : Routing e inFlight)
    (hfree : FreeFor e id sink) :
    Routing (e.raise id sink) inFlight where
  routed p hp := by
    rcases List.mem_append.mp hp with hold | hnew
    · obtain ⟨hmem, hne⟩ := List.mem_filter.mp hold
      have hid : p.id ≠ id := by
        rintro rfl
        exact of_decide_eq_true hne (by rw [← hfree p hmem rfl])
      exact (Function.update_of_ne hid _ _).trans (h.routed p hmem)
    · split at hnew
      · cases hnew
      · obtain rfl := List.mem_singleton.mp hnew
        exact Function.update_self _ _ _
  known id' sink' hroute := by
    rw [PromptState.gone_raise]
    by_cases hid : id' = id
    · subst hid
      obtain rfl : sink = sink' := by
        simpa [PromptState.raise] using hroute
      by_cases hgone : e.Gone sink
      · exact Or.inl hgone
      · exact Or.inr (List.mem_append_right _ (by simp [hgone]))
    · have hold := h.known id' sink' (by simpa [PromptState.raise, hid] using hroute)
      refine hold.imp_right fun hmem => List.mem_append_left _ ?_
      exact List.mem_filter.mpr ⟨hmem, by simp [hid]⟩
  nodup := by
    refine List.Nodup.append (h.nodup.filter _) (by split <;> simp) ?_
    intro p hp hp'
    split at hp'
    · cases hp'
    · obtain rfl := List.mem_singleton.mp hp'
      simp at hp
  present p hp := by
    rw [PromptState.gone_raise]
    rcases List.mem_append.mp hp with hold | hnew
    · exact h.present p (List.mem_of_mem_filter hold)
    · split at hnew
      · cases hnew
      · rename_i hgone
        obtain rfl := List.mem_singleton.mp hnew
        exact hgone
  owed p := by
    simp only [PromptState.gone_raise]
    exact h.owed p
  once p := by
    have honce := h.once p
    by_cases hid : p.id = id
    · have hp : (some sink = some p.raiser) ↔ (⟨id, sink⟩ : RaisedPrompt) = p := by
        rw [← hid]
        cases p
        simp
      simp only [PromptState.raise, hid, Function.update_self, hp, List.count_append,
        List.count_singleton, beq_iff_eq]
      omega
    · simp only [PromptState.raise, Function.update_of_ne hid, List.count_append]
      omega

/-- Taking a route out for an answer. -/
theorem take
    (h : Routing e inFlight) :
    Routing (e.take id) fun p =>
      inFlight p + if p.id = id ∧ e.routes id = some p.raiser then 1 else 0 where
  routed p hp := by
    obtain ⟨hmem, hid⟩ := List.mem_filter.mp hp
    exact (Function.update_of_ne (of_decide_eq_true hid) _ _).trans (h.routed p hmem)
  known id' sink' hroute := by
    by_cases hid : id' = id
    · subst hid
      simp [PromptState.take] at hroute
    · have hold := h.known id' sink' (by simpa [PromptState.take, hid] using hroute)
      exact hold.imp_right fun hmem => List.mem_filter.mpr ⟨hmem, by simp [hid]⟩
  nodup := h.nodup.filter _
  present p hp := h.present p (List.mem_of_mem_filter hp)
  owed p := by
    have hcount : (e.outstanding.filter fun p => p.id = id).count p =
        if p ∈ e.outstanding ∧ p.id = id then 1 else 0 := by
      rw [(h.nodup.filter _).count]
      simp
    have howed := h.owed p
    simp only [PromptState.take, List.count_append, hcount]
    change _ = if e.Gone p.raiser then 0 else _
    by_cases hgone : e.Gone p.raiser
    · have hnot : p ∉ e.outstanding := fun hmem => h.present p hmem hgone
      simp only [hgone, if_true] at howed ⊢
      simp [howed, hnot]
    · have hiff : (p ∈ e.outstanding ∧ p.id = id) ↔
          (p.id = id ∧ e.routes id = some p.raiser) := by
        constructor
        · rintro ⟨hmem, rfl⟩
          exact ⟨rfl, h.routed p hmem⟩
        · rintro ⟨rfl, hroute⟩
          exact ⟨(h.known _ _ hroute).resolve_left hgone, rfl⟩
      simp only [hgone, if_false] at howed ⊢
      rw [howed]
      simp only [hiff]
  once p := by
    have honce := h.once p
    by_cases hid : p.id = id
    · subst hid
      simp only [PromptState.take, Function.update_self, true_and]
      simpa [Nat.add_assoc] using honce
    · simp only [PromptState.take, Function.update_of_ne hid, hid, false_and,
        if_false]
      omega

/-- Handing an answer over to somebody who is there to take it, or to nobody. -/
theorem deliver
    {p : RaisedPrompt} {accepted taken : Bool}
    (h : Routing e inFlight)
    (hflight : ∀ q, inFlight' q + (if q = p then 1 else 0) = inFlight q)
    (hok : e.Gone p.raiser ∨ PromptState.takes taken p.raiser = true) :
    Routing (e.deliver p accepted taken) inFlight' := by
  by_cases hgone : e.Gone p.raiser
  · have hsame : e.deliver p accepted taken = e := by
      simp [PromptState.deliver, hgone]
    rw [hsame]
    refine ⟨h.routed, h.known, h.nodup, h.present, fun q => ?_, fun q => ?_⟩
    · have howed := h.owed q
      have hq := hflight q
      by_cases heq : q = p
      · subst heq
        simpa [hgone] using howed
      · rw [if_neg heq] at hq
        rw [howed, ← hq]
        rfl
    · have honce := h.once q
      have hq := hflight q
      omega
  · have htakes := hok.resolve_left hgone
    have hhanded : ¬ (e.Gone p.raiser ∨ PromptState.takes taken p.raiser = false) := by
      simp [hgone, htakes]
    have hafter (sink : PromptSink) :
        (e.deliver p accepted taken).Gone sink ↔ e.Gone sink :=
      PromptState.gone_deliver
    simp only [PromptState.deliver, if_neg hhanded] at hafter ⊢
    refine ⟨h.routed, fun id sink hroute => ?_, h.nodup, fun q hq => ?_, fun q => ?_,
      fun q => ?_⟩
    · rw [hafter]
      exact h.known id sink hroute
    · rw [hafter]
      exact h.present q hq
    · have howed := h.owed q
      have hq := hflight q
      simp only [hafter]
      rw [List.count_erase]
      by_cases heq : q = p
      · subst heq
        simp only [hgone, if_false, if_true, beq_self_eq_true] at *
        omega
      · have hne : ¬ (p == q) = true := fun h => heq (eq_of_beq h).symm
        rw [if_neg heq] at hq
        rw [if_neg hne, howed, ← hq]
        rfl
    · have honce := h.once q
      have hq := hflight q
      simp only [List.count_append, List.count_singleton]
      by_cases heq : q = p
      · subst heq
        simp only [if_true, beq_self_eq_true] at *
        omega
      · have hne : ¬ (p == q) = true := fun h => heq (eq_of_beq h).symm
        rw [if_neg heq] at hq
        rw [if_neg hne]
        omega

/-- Giving the table up for the sinks that get lost. -/
theorem withdraw
    (lost : PromptSink → Prop) [DecidablePred lost]
    (h : Routing e inFlight)
    (hroutes : e'.routes = e.routes)
    (houtstanding : e'.outstanding = e.outstanding.filter fun p => ¬ lost p.raiser)
    (howed : e'.owed = e.owed.filter fun p => ¬ lost p.raiser)
    (hraised : e'.raised = e.raised)
    (hdelivered : e'.delivered = e.delivered)
    (hgone : ∀ sink, e'.Gone sink ↔ e.Gone sink ∨ lost sink) :
    Routing e' inFlight where
  routed p hp := by
    rw [houtstanding] at hp
    rw [hroutes]
    exact h.routed p (List.mem_of_mem_filter hp)
  known id sink hroute := by
    rw [hroutes] at hroute
    rw [hgone, houtstanding]
    rcases h.known id sink hroute with hold | hmem
    · exact Or.inl (Or.inl hold)
    · by_cases hlost : lost sink
      · exact Or.inl (Or.inr hlost)
      · exact Or.inr (List.mem_filter.mpr ⟨hmem, by simp [hlost]⟩)
  nodup := by
    rw [houtstanding]
    exact h.nodup.filter _
  present p hp := by
    rw [houtstanding] at hp
    obtain ⟨hmem, hkept⟩ := List.mem_filter.mp hp
    rw [hgone]
    rintro (hold | hlost)
    · exact h.present p hmem hold
    · exact of_decide_eq_true hkept hlost
  owed p := by
    have hold := h.owed p
    rw [howed]
    by_cases hlost : lost p.raiser
    · have hnot : p ∉ e.owed.filter fun p => ¬ lost p.raiser := by
        simp [hlost]
      rw [List.count_eq_zero_of_not_mem hnot, if_pos ((hgone _).mpr (Or.inr hlost))]
    · rw [List.count_filter (by simp [hlost]), hold]
      simp only [hgone, hlost, or_false]
  once p := by
    rw [hdelivered, hraised, hroutes]
    exact h.once p

/-- Removing what is under an id that no prompt is outstanding under. -/
theorem remove
    (h : Routing e inFlight)
    (hfree : ∀ p ∈ e.outstanding, p.id ≠ id) :
    Routing (e.remove id) inFlight where
  routed p hp := (Function.update_of_ne (hfree p hp) _ _).trans (h.routed p hp)
  known id' sink hroute := by
    rw [PromptState.gone_remove]
    by_cases hid : id' = id
    · subst hid
      simp [PromptState.remove] at hroute
    · exact h.known id' sink (by simpa [PromptState.remove, hid] using hroute)
  nodup := h.nodup
  present p hp := by
    rw [PromptState.gone_remove]
    exact h.present p hp
  owed p := by
    simp only [PromptState.gone_remove]
    exact h.owed p
  once p := by
    have honce := h.once p
    by_cases hid : p.id = id
    · subst hid
      simp only [PromptState.remove, Function.update_self, reduceCtorEq, if_false]
      omega
    · simp only [PromptState.remove, Function.update_of_ne hid]
      exact honce

/-- Dropping the routes of the connections that are gone. -/
theorem retain
    (h : Routing e inFlight) :
    Routing e.retain inFlight where
  routed p hp := by
    have hthere := h.present p hp
    change (e.routes p.id).filter _ = some p.raiser
    rw [h.routed p hp, Option.filter_some, if_pos]
    cases hr : p.raiser with
    | engine n => simp [PromptSink.sender?]
    | module origin sender =>
        simpa [hr, PromptState.Gone, PromptSink.sender?] using hthere
  known id sink hroute := h.known id sink (Option.filter_eq_some_iff.mp hroute).1
  nodup := h.nodup
  present := h.present
  owed := h.owed
  once p := by
    have honce := h.once p
    have hle : (if e.retain.routes p.id = some p.raiser then 1 else 0) ≤
        if e.routes p.id = some p.raiser then 1 else 0 := by
      by_cases hkept : e.retain.routes p.id = some p.raiser
      · have hroute : e.routes p.id = some p.raiser :=
          (Option.filter_eq_some_iff.mp hkept).1
        rw [if_pos hkept, if_pos hroute]
      · rw [if_neg hkept]
        exact Nat.zero_le _
    exact (Nat.add_le_add_left hle _).trans honce

/-- What the table does not depend on. -/
theorem frame
    (h : Routing e inFlight)
    (nextChannel : Nat) (moduleSenders : List (String × Nat))
    (outcomes : List (String × PromptOutcome)) (shown : List (Nat × String)) :
    Routing { e with
      nextChannel := nextChannel
      moduleSenders := moduleSenders
      outcomes := outcomes
      shown := shown } inFlight :=
  ⟨h.routed, h.known, h.nodup, h.present, h.owed, h.once⟩

end Routing

/-- The agreement gives the routing. -/
theorem Routing.promptsRouted
    {s : PromptPool}
    (h : Routing s.shared (inFlight s)) :
    PromptsRouted s where
  routed := h.routed
  answered p := by
    rw [h.owed p]
    split
    · exact Nat.zero_le _
    · exact le_rfl
  once p := by
    have honce := h.once p
    omega

section Steps

variable {s s' : PromptPool} {a : PromptAnswer} {l : PromptLabel}
variable {f : PromptFrame} {o : Outcome PromptState PromptFrame}

theorem next_of_thenRun
    {e : PromptState} {fs : List PromptFrame}
    (ho : some (Outcome.thenRun e fs) = some o) :
    ∃ fs, o.next = some fs := by
  obtain rfl := Option.some.inj ho
  exact ⟨fs, rfl⟩

/-- A step goes on in its own task. -/
theorem PromptFrame.step_next
    {e : PromptState}
    (ho : f.step e a = some o) :
    ∃ fs, o.next = some fs := by
  cases f with
  | collect id =>
      simp only [PromptFrame.step] at ho
      split at ho <;> exact next_of_thenRun ho
  | send id channel senders =>
      cases senders <;> exact next_of_thenRun ho
  | wait id channel =>
      simp only [PromptFrame.step, PromptFrame.waitStep] at ho
      split at ho
      · exact next_of_thenRun ho
      · exact next_of_thenRun ho
      · split at ho
        · exact next_of_thenRun ho
        · cases ho
      · cases ho
  | respond id accepted =>
      simp only [PromptFrame.step] at ho
      split at ho <;> exact next_of_thenRun ho
  | _ => exact next_of_thenRun ho

/-- The weight an answer on its way has. -/
def PromptFrame.weight (p : RaisedPrompt) (f : PromptFrame) : Nat :=
  if f.carries p then 1 else 0

/-- A response takes its route, and puts the answer on its way to whoever raised the
prompt. -/
theorem Routing.respond
    {inFlight' : RaisedPrompt → Nat} {id : String} {accepted : Bool}
    (h : Routing s.shared (inFlight s))
    (ho : (PromptFrame.respond id accepted).step s.shared a = some o)
    (hflight : ∀ p, inFlight' p =
      inFlight s p + (o.new.map (PromptFrame.weight p)).sum) :
    Routing o.shared inFlight' := by
  have htaken : Routing (s.shared.take id) _ := h.take
  suffices hnew : o.shared = s.shared.take id ∧ inFlight' = fun p =>
      inFlight s p +
        if p.id = id ∧ s.shared.routes id = some p.raiser then 1 else 0 by
    rw [hnew.1, hnew.2]
    exact htaken
  simp only [PromptFrame.step] at ho
  split at ho
  · rename_i hroute
    obtain rfl := Option.some.inj ho
    refine ⟨rfl, funext fun p => ?_⟩
    rw [hflight p]
    simp [hroute]
  · rename_i sink hroute
    obtain rfl := Option.some.inj ho
    refine ⟨rfl, funext fun p => ?_⟩
    have hcarries : (⟨id, sink⟩ : RaisedPrompt) = p ↔
        p.id = id ∧ s.shared.routes id = some p.raiser := by
      rw [hroute]
      cases p
      simp [eq_comm]
    rw [hflight p]
    simp [PromptFrame.weight, PromptFrame.carries, hcarries]

/-- A step that keeps the routes keeps the routing, when the answers on their way
change as its frames say. -/
theorem Routing.step
    {inFlight' : RaisedPrompt → Nat}
    (h : Routing s.shared (inFlight s))
    (hok : KeepsRoutes s a f)
    (ho : f.step s.shared a = some o)
    (hflight : ∀ p, inFlight' p + f.weight p =
      inFlight s p + (o.new.map (PromptFrame.weight p)).sum) :
    Routing o.shared inFlight' := by
  -- only the two frames of a response change what is on its way
  have hsame (hnone : ∀ p, f.weight p = 0)
      (hnew : ∀ p, (o.new.map (PromptFrame.weight p)).sum = 0) :
      inFlight' = inFlight s := by
    funext p
    have hp := hflight p
    rw [hnone p, hnew p] at hp
    exact hp
  cases f with
  | collect id =>
      simp only [PromptFrame.step] at ho
      split at ho
      · obtain rfl := Option.some.inj ho
        rw [hsame (fun p => rfl) (fun p => rfl)]
        exact h.frame _ _ _ _
      · obtain rfl := Option.some.inj ho
        rw [hsame (fun p => rfl) (fun p => rfl)]
        exact h
  | insert id senders =>
      obtain rfl := Option.some.inj ho
      rw [hsame (fun p => rfl) (fun p => rfl)]
      exact (h.raise hok).frame _ _ _ _
  | send id channel senders =>
      cases senders with
      | nil =>
          obtain rfl := Option.some.inj ho
          rw [hsame (fun p => rfl) (fun p => rfl)]
          exact h
      | cons sender senders =>
          obtain rfl := Option.some.inj ho
          rw [hsame (fun p => rfl) (fun p => rfl)]
          exact h.frame _ _ _ _
  | wait id channel =>
      simp only [PromptFrame.step, PromptFrame.waitStep] at ho
      split at ho
      · obtain rfl := Option.some.inj ho
        rw [hsame (fun p => rfl) (fun p => rfl)]
        exact h
      · obtain rfl := Option.some.inj ho
        rw [hsame (fun p => rfl) (fun p => rfl)]
        exact h
      · split at ho
        · obtain rfl := Option.some.inj ho
          rw [hsame (fun p => rfl) (fun p => rfl)]
          exact h.withdraw (fun sink => sink = .engine channel) rfl rfl rfl
            rfl rfl fun sink => PromptState.gone_expire
        · cases ho
      · cases ho
  | remove id outcome =>
      obtain rfl := Option.some.inj ho
      rw [hsame (fun p => rfl) (fun p => rfl)]
      exact (h.remove hok).frame _ _ _ _
  | raise origin sender id =>
      obtain rfl := Option.some.inj ho
      rw [hsame (fun p => rfl) (fun p => rfl)]
      exact h.raise hok
  | forward origin id =>
      obtain rfl := Option.some.inj ho
      rw [hsame (fun p => rfl) (fun p => rfl)]
      exact h.frame _ _ _ _
  | cleanup =>
      obtain rfl := Option.some.inj ho
      rw [hsame (fun p => rfl) (fun p => rfl)]
      exact h.retain
  | respond id accepted => exact h.respond ho hflight
  | deliver p accepted =>
      obtain rfl := Option.some.inj ho
      refine h.deliver (fun q => ?_) hok
      have hq := hflight q
      simpa [PromptFrame.weight, PromptFrame.carries, eq_comm] using hq

/-- What the world does keeps the routing. -/
theorem Routing.world
    {ev : PromptEvent} {r : PromptState × List (List PromptFrame)}
    (h : Routing s.shared (inFlight s))
    (hr : promptHandling.event s.shared ev = some r) :
    Routing r.1 (inFlight s) := by
  cases ev with
  | connect name sender =>
      obtain rfl := Option.some.inj hr
      exact h.frame _ _ _ _
  | disconnect sender =>
      obtain rfl := Option.some.inj hr
      exact h.withdraw (fun sink => sink.sender? = some sender) rfl rfl rfl rfl
        rfl fun sink => PromptState.gone_close
  | ask id =>
      obtain rfl := Option.some.inj hr
      exact h
  | prompt origin sender id =>
      obtain rfl := Option.some.inj hr
      exact h
  | promptResponse id accepted =>
      obtain rfl := Option.some.inj hr
      exact h

/-- No event brings an answer along. -/
theorem weight_of_event
    {e : PromptState} {ev : PromptEvent} {r : PromptState × List (List PromptFrame)}
    (p : RaisedPrompt)
    (hr : promptHandling.event e ev = some r) :
    (r.2.flatten.map (PromptFrame.weight p)).sum = 0 := by
  cases ev <;> obtain rfl := Option.some.inj hr <;> rfl

/-- One step keeps the routing. -/
theorem Routing.fire
    (h : Routing s.shared (inFlight s))
    (hok : OnRun KeepsRoutes s l)
    (hfire : promptHandling.fire s l = some s') :
    Routing s'.shared (inFlight s') := by
  cases l with
  | run i a =>
      obtain ⟨f, rest, o, hi, ho, rfl⟩ := fire_run_cases hfire
      obtain ⟨fs, hnext⟩ := PromptFrame.step_next ho
      refine h.step (hok.top hi) ho fun p => ?_
      exact total_fire_run_of_next (PromptFrame.weight p) hi hnext
  | world ev =>
      obtain ⟨r, hr, rfl⟩ := fire_world_cases hfire
      have hsame :
          inFlight { shared := r.1, threads := s.threads ++ r.2 } = inFlight s := by
        funext p
        change Pool.total (PromptFrame.weight p) _ = s.total (PromptFrame.weight p)
        rw [total_fire_world, weight_of_event p hr, Nat.add_zero]
      rw [hsame]
      exact h.world hr

/-- What a raised prompt leaves routed was not somebody else's. -/
theorem freeFor_of_routed
    {e : PromptState} {id : String} {sink : PromptSink}
    (hrouted : ∀ p ∈ (e.raise id sink).outstanding,
      (e.raise id sink).routes p.id = some p.raiser) :
    FreeFor e id sink := by
  rintro p hp rfl
  by_contra hne
  have hmem : p ∈ (e.raise p.id sink).outstanding := by
    refine List.mem_append_left _ (List.mem_filter.mpr ⟨hp, ?_⟩)
    refine decide_eq_true fun heq => hne ?_
    rw [heq]
  have hroute := hrouted p hmem
  simp only [PromptState.raise, Function.update_self] at hroute
  exact hne (Option.some.inj hroute).symm

/-- A step that breaks the condition breaks the routing at once. -/
theorem onRun_keepsRoutes_of_promptsRouted
    (h : Routing s.shared (inFlight s))
    (hfire : promptHandling.fire s l = some s')
    (hs' : PromptsRouted s') :
    OnRun KeepsRoutes s l := by
  cases l with
  | world ev => trivial
  | run i a =>
      obtain ⟨f, rest, o, hi, ho, rfl⟩ := fire_run_cases hfire
      intro g hg
      obtain rfl : f = g := by simpa [Pool.top, hi] using hg
      cases f with
      | insert id senders =>
          obtain rfl := Option.some.inj ho
          exact freeFor_of_routed hs'.routed
      | raise origin sender id =>
          obtain rfl := Option.some.inj ho
          exact freeFor_of_routed hs'.routed
      | remove id outcome =>
          obtain rfl := Option.some.inj ho
          intro p hp hid
          have hroute := hs'.routed p hp
          simp [PromptState.remove, hid] at hroute
      | deliver p accepted =>
          by_contra hlost
          have hgone : ¬ s.shared.Gone p.raiser := fun hg => hlost (Or.inl hg)
          have hnot : PromptState.takes a.taken p.raiser = false :=
            Bool.eq_false_iff.mpr fun ht => hlost (Or.inr ht)
          obtain ⟨fs, hnext⟩ := PromptFrame.step_next (f := .deliver p accepted) ho
          have hweight := total_fire_run_of_next (PromptFrame.weight p) hi hnext
            (P := promptHandling)
          have hanswered := hs'.answered p
          have howed := h.owed p
          rw [if_neg hgone] at howed
          obtain rfl := Option.some.inj ho
          have hself : PromptFrame.weight p (.deliver p accepted) = 1 := by
            simp [PromptFrame.weight, PromptFrame.carries]
          have hsame : (s.shared.deliver p accepted a.taken).owed = s.shared.owed := by
            simp [PromptState.deliver, hnot]
          rw [hself] at hweight
          simp only [Outcome.new_thenRun, List.map_nil, List.sum_nil,
            Nat.add_zero] at hweight
          simp only [Outcome.shared_thenRun, hsame, howed] at hanswered
          have hless := hanswered.trans_lt (Nat.lt_succ_self _)
          exact absurd (hless.trans_eq hweight) (lt_irrefl _)
      | _ => trivial

end Steps

/-- The engine before anybody has connected or asked. -/
def promptStart : PromptPool where
  shared := {}
  threads := []

theorem routing_promptStart :
    Routing promptStart.shared (inFlight promptStart) := by
  constructor <;> simp [promptStart, inFlight, Pool.total, Pool.frames]

/-- **Main theorem.**  Along every run, every outstanding prompt is routed to
its raiser and every answer is delivered to it once, exactly when no step raises
or cleans up under an id that another party's prompt is outstanding under and
every connected module takes its answers. -/
theorem promptsRouted_iff_keepsRoutes
    (ls : List PromptLabel)
    (hrun : (promptHandling.exec promptStart ls).isSome = true) :
    AllStates promptHandling PromptsRouted promptStart ls ↔
      AllSteps promptHandling (OnRun KeepsRoutes) promptStart ls :=
  allStates_iff_allSteps
    (I := fun s => Routing s.shared (inFlight s))
    Routing.promptsRouted Routing.fire onRun_keepsRoutes_of_promptsRouted
    routing_promptStart hrun

/-- A module's prompt is shown and answered while the engine's own waits. -/
def twoPrompts : List PromptLabel :=
  [.world (.connect "tui" 0), .world (.connect "guard" 1),
   .world (.ask "p"), .run 0 {}, .run 0 {},
   .world (.prompt "guard" 1 "q"), .run 1 {}, .run 1 {},
   .world (.promptResponse "q" true), .run 2 {}, .run 2 {}]

theorem promptsRouted_iff_keepsRoutes_twoPrompts :
    AllStates promptHandling PromptsRouted promptStart twoPrompts ↔
      AllSteps promptHandling (OnRun KeepsRoutes) promptStart twoPrompts :=
  promptsRouted_iff_keepsRoutes twoPrompts (by decide)

/-- A module raises a prompt under the id that the engine's own has shown it. -/
def sameId : List PromptLabel :=
  [.world (.connect "tui" 0), .world (.connect "guard" 1),
   .world (.ask "p"), .run 0 {}, .run 0 {}, .run 0 {}, .run 0 {},
   .world (.prompt "guard" 1 "p"), .run 1 {}]

/-- The engine's prompt is outstanding, and its answer goes to the module. -/
theorem sameId_diverted :
    ¬ ∀ (ls : List PromptLabel) (s : PromptPool),
      promptHandling.exec promptStart ls = some s →
      PromptsRouted s := by
  intro h
  have hrouted := (h sameId _ rfl).routed ⟨"p", .engine 0⟩ (by decide)
  exact absurd hrouted (by decide)

end CockatielEngine
