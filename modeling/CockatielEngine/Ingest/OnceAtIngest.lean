import CockatielEngine.Ingest.MessageArm

/-!
# Ingest: side effects over whole runs

The arm for pre-process messages acts before anything has told a new message
from the echo of a module, so an echo is counted, and answered, like a new
message.

**Main result.**  Over a run of the engine with any deliveries, echoes and
re-sends, the side effects made for each message are those of its ingest, each
of them once, exactly when no echo asks for a reply or names a sender.
-/

namespace CockatielEngine

open TaskPool

section Defs

/-- The chat asks for a reply on a platform that has an adapter. -/
def AsksReply (inputs : ArmInputs) (chat : ChatMessage) : Prop :=
  replyTargets chat.platform ≠ [] ∧
    match classifyCommand chat.rawMessage inputs.registry with
    | .help _ => True
    | .alert _ _ => True
    | _ => False

instance (inputs : ArmInputs) (chat : ChatMessage) :
    Decidable (AsksReply inputs chat) := by
  unfold AsksReply
  split <;> infer_instance

/-- A registered command is attached to the chat. -/
def attaches (inputs : ArmInputs) (chat : ChatMessage) : Bool :=
  match classifyCommand chat.rawMessage inputs.registry with
  | .attach _ => true
  | _ => false

/-- The sender of the chat: the user record found for it, where one is looked
up, and otherwise the identifier it came with. -/
def senderOf (inputs : ArmInputs) (chat : ChatMessage) : String :=
  if chat.userUuid7 = "" then ""
  else if shouldFetchUserData (attaches inputs chat) inputs.fetchRegistry
      inputs.config inputs.connected then
    (inputs.found.map (·.uuid)).getD chat.userUuid7
  else chat.userUuid7

/-- The text of the reply that the chat asks for. -/
def replyText (w : Wording) (inputs : ArmInputs) (chat : ChatMessage) :
    String :=
  match classifyCommand chat.rawMessage inputs.registry with
  | .help module => w.help inputs.replyRegistry module
  | .alert flag name =>
      w.apology inputs.replyRegistry (addressee chat) flag name
  | _ => ""

/-- The side effects that a new message calls for: the reply it asks for, and
one count towards its sender. -/
def callsFor (w : Wording) (inputs : ArmInputs) (chat : ChatMessage) :
    List SideEffect :=
  (if AsksReply inputs chat then
    engineReplyToPlatform chat.platform chat.channelId (replyText w inputs chat)
  else []) ++
  if senderOf inputs chat = "" then []
  else [.incrementMessagesSent (senderOf inputs chat)]

/-- The engine together with what its arms have asked of the outside, by
message; `ingested` is a ghost for what each new message called for. -/
structure Host where
  pool : EnginePool
  ledger : List (String × SideEffect) := []
  ingested : List (String × List SideEffect) := []

/-- The engine takes a step, or a pre-process message is received. -/
inductive HostEvent where
  | engine (l : EngineLabel)
  | received (inputs : ArmInputs) (moduleName : String) (msg : MessagePreProcess)

/-- The message that the arm runs for: a new one is given a uuid of its own. -/
def subject (inputs : ArmInputs) (msg : MessagePreProcess) : String :=
  if msg.messageUuid7 = "" then inputs.uuid7 else msg.messageUuid7

/-- What the arm starts in the pipeline. -/
def Host.start (h : Host) : Option WorldEvent → Option EnginePool
  | none => some h.pool
  | some ev => CockatielEngine.engine.fire h.pool (.world ev)

/-- One run of the arm; a new uuid is never one that was given before. -/
def Host.receive (w : Wording) (h : Host) (inputs : ArmInputs)
    (moduleName : String) (msg : MessagePreProcess) : Option Host :=
  let r := messageArm w inputs moduleName msg
  let ledger :=
    h.ledger ++ r.1.map fun effect => (subject inputs msg, effect)
  if msg.messageUuid7 ≠ "" then
    (h.start r.2).map fun pool => { h with pool := pool, ledger := ledger }
  else if inputs.uuid7 ∈ h.ingested.map (·.1) then none
  else
    (h.start r.2).map fun pool =>
      { pool := pool, ledger := ledger
        ingested := h.ingested ++
          [(inputs.uuid7, (msg.rawMessage.map (callsFor w inputs)).getD [])] }

/-- The host: its arms are world events, and it has no tasks of its own. -/
def host (w : Wording) : Program Host Empty Unit HostEvent where
  step _ f _ := nomatch f
  catches f := nomatch f
  event h
    | .engine l =>
        (CockatielEngine.engine.fire h.pool l).map fun pool =>
          ({ h with pool := pool }, [])
    | .received inputs moduleName msg =>
        (h.receive w inputs moduleName msg).map fun h' => (h', [])

/-- The side effects made for a message. -/
def effectsFor (h : Host) (uuid7 : String) : List SideEffect :=
  (h.ledger.filter fun x => x.1 = uuid7).map (·.2)

/-- The side effects that the ingest of a message called for. -/
def calledFor (h : Host) (uuid7 : String) : List SideEffect :=
  (h.ingested.filter fun x => x.1 = uuid7).flatMap (·.2)

/-- Every message has the side effects of its ingest, each of them once. -/
def OnceAtIngest (s : Pool Host Empty) : Prop :=
  ∀ uuid7, effectsFor s.shared uuid7 = calledFor s.shared uuid7 ∧
    (effectsFor s.shared uuid7).Nodup

/-- The events other than an echo that asks for a reply or names a sender. -/
def QuietEcho (_ : Pool Host Empty) : Label Unit HostEvent → Prop
  | .world (.received inputs _ msg) =>
      msg.messageUuid7 ≠ "" → ∀ chat ∈ msg.rawMessage,
        ¬ AsksReply inputs chat ∧ senderOf inputs chat = ""
  | _ => True

instance (s : Pool Host Empty) (l : Label Unit HostEvent) :
    Decidable (QuietEcho s l) := by
  unfold QuietEcho
  split <;> infer_instance

end Defs

section Arm

variable {w : Wording} {inputs : ArmInputs} {chat : ChatMessage}

/-- The reply part of the arm. -/
theorem replies_eq :
    (handleCommandOnIngest w inputs chat).2 =
      if AsksReply inputs chat then
        engineReplyToPlatform chat.platform chat.channelId
          (replyText w inputs chat)
      else [] := by
  cases hclass : classifyCommand chat.rawMessage inputs.registry <;>
    by_cases htargets : replyTargets chat.platform = [] <;>
    simp [handleCommandOnIngest, AsksReply, replyText, engineReplyToPlatform,
      hclass, htargets]

/-- Command handling leaves the sender alone. -/
theorem userUuid7_handleCommand :
    (handleCommandOnIngest w inputs chat).1.1.userUuid7 = chat.userUuid7 := by
  unfold handleCommandOnIngest
  split <;> rfl

theorem attached_handleCommand :
    (handleCommandOnIngest w inputs chat).1.2 = attaches inputs chat := by
  unfold handleCommandOnIngest attaches
  cases classifyCommand chat.rawMessage inputs.registry <;> rfl

/-- The arm counts the message towards its sender. -/
theorem userUuid7_processChat
    (w : Wording) (inputs : ArmInputs) (chat : ChatMessage) :
    (processChat w inputs chat).1.userUuid7 = senderOf inputs chat := by
  simp only [processChat, senderOf, attached_handleCommand]
  split
  · simp only [enrichChatUser, userUuid7_handleCommand]
    split
    · rename_i hempty
      exact (userUuid7_handleCommand).trans hempty
    · cases inputs.found with
      | none => exact userUuid7_handleCommand
      | some user => rfl
  · rw [userUuid7_handleCommand]
    split
    · assumption
    · rfl

/-- One run of the arm does what the chat calls for. -/
theorem effects_processChat :
    (processChat w inputs chat).2 = callsFor w inputs chat := by
  have hsender := userUuid7_processChat w inputs chat
  simp only [processChat, countMessage, callsFor, replies_eq] at hsender ⊢
  rw [hsender]

theorem effects_messageArm (moduleName : String) (msg : MessagePreProcess) :
    (messageArm w inputs moduleName msg).1 =
      (msg.rawMessage.map (callsFor w inputs)).getD [] := by
  unfold messageArm
  cases msg.rawMessage with
  | none => rfl
  | some chat => exact effects_processChat

/-- A chat calls for nothing when it asks for no reply and names no sender. -/
theorem callsFor_eq_nil_iff :
    callsFor w inputs chat = [] ↔
      ¬ AsksReply inputs chat ∧ senderOf inputs chat = "" := by
  have hreply (text : String) (hasks : AsksReply inputs chat) :
      engineReplyToPlatform chat.platform chat.channelId text ≠ [] := by
    simpa [engineReplyToPlatform] using hasks.1
  rw [callsFor, List.append_eq_nil_iff]
  constructor
  · rintro ⟨hquiet, hcount⟩
    constructor
    · intro hasks
      rw [if_pos hasks] at hquiet
      exact hreply _ hasks hquiet
    · by_contra hsender
      simp [hsender] at hcount
  · rintro ⟨hquiet, hsender⟩
    simp [hquiet, hsender]

theorem replyTargets_nodup (platform : String) :
    (replyTargets platform).Nodup := by
  unfold replyTargets
  repeat' split
  all_goals decide

/-- An engine reply goes to each adapter once. -/
theorem engineReply_nodup (platform channelId text : String) :
    (engineReplyToPlatform platform channelId text).Nodup := by
  refine (replyTargets_nodup platform).map fun a b h => ?_
  exact (SideEffect.reply.inj h).1

/-- A chat calls for each of its side effects once. -/
theorem callsFor_nodup :
    (callsFor w inputs chat).Nodup := by
  refine List.nodup_append.mpr ⟨?_, ?_, ?_⟩
  · split
    · exact engineReply_nodup ..
    · exact List.nodup_nil
  · split <;> simp
  · rintro x hx y hy rfl
    split at hx <;> split at hy <;>
      simp_all [engineReplyToPlatform]

end Arm

section Runs

variable {w : Wording} {h : Host}

theorem effectsFor_append (tags : List (String × SideEffect)) (uuid7 : String) :
    effectsFor { h with ledger := h.ledger ++ tags } uuid7 =
      effectsFor h uuid7 ++ (tags.filter fun x => x.1 = uuid7).map (·.2) := by
  simp [effectsFor]

/-- The side effects of one run of the arm all go to its subject. -/
theorem effectsFor_tagged (effects : List SideEffect) (subject uuid7 : String) :
    ((effects.map fun effect => (subject, effect)).filter
        fun x => x.1 = uuid7).map (·.2) =
      if subject = uuid7 then effects else [] := by
  by_cases hu : subject = uuid7 <;>
    simp [List.filter_map, hu, Function.comp_def]

theorem calledFor_append (uuid7 : String) (calls : List SideEffect)
    (other : String) :
    calledFor { h with ingested := h.ingested ++ [(uuid7, calls)] } other =
      calledFor h other ++ if uuid7 = other then calls else [] := by
  by_cases hu : uuid7 = other <;> simp [calledFor, hu]

/-- Nothing has been called for on behalf of a message not yet ingested. -/
theorem calledFor_of_unseen
    {uuid7 : String}
    (hnew : uuid7 ∉ h.ingested.map (·.1)) :
    calledFor h uuid7 = [] := by
  have hfilter : h.ingested.filter (fun x => x.1 = uuid7) = [] := by
    rw [List.filter_eq_nil_iff]
    intro x hx
    simpa using fun hu : x.1 = uuid7 => hnew (hu ▸ List.mem_map_of_mem hx)
  simp [calledFor, hfilter]

/-- Everything one run of the arm does to the ledger and to the ghost. -/
theorem Host.receive_cases
    {h' : Host} {inputs : ArmInputs} {moduleName : String}
    {msg : MessagePreProcess}
    (hr : h.receive w inputs moduleName msg = some h') :
    (∀ uuid7, effectsFor h' uuid7 = effectsFor h uuid7 ++
      if subject inputs msg = uuid7 then
        (msg.rawMessage.map (callsFor w inputs)).getD []
      else []) ∧
    ((msg.messageUuid7 ≠ "" ∧ ∀ uuid7, calledFor h' uuid7 = calledFor h uuid7) ∨
      (msg.messageUuid7 = "" ∧ calledFor h (subject inputs msg) = [] ∧
        ∀ uuid7, calledFor h' uuid7 = calledFor h uuid7 ++
          if subject inputs msg = uuid7 then
            (msg.rawMessage.map (callsFor w inputs)).getD []
          else [])) := by
  simp only [Host.receive, effects_messageArm] at hr
  split at hr
  · rename_i hecho
    obtain ⟨pool, -, rfl⟩ := Option.map_eq_some_iff.mp hr
    refine ⟨fun uuid7 => ?_, Or.inl ⟨hecho, fun uuid7 => rfl⟩⟩
    rw [← effectsFor_tagged]
    exact effectsFor_append (h := h) _ uuid7
  · rename_i hnew
    have hingest : msg.messageUuid7 = "" := of_not_not hnew
    split at hr
    · cases hr
    · rename_i hunseen
      obtain ⟨pool, -, rfl⟩ := Option.map_eq_some_iff.mp hr
      have hsubject : subject inputs msg = inputs.uuid7 := if_pos hingest
      refine ⟨fun uuid7 => ?_, Or.inr ⟨hingest, ?_, fun uuid7 => ?_⟩⟩
      · rw [← effectsFor_tagged]
        exact effectsFor_append (h := h) _ uuid7
      · rw [hsubject]
        exact calledFor_of_unseen hunseen
      · rw [hsubject]
        exact calledFor_append (h := h) _ _ uuid7

end Runs

/-- **Main theorem.**  From a host that has asked nothing of the outside, every
message has the side effects of its ingest, each of them once, in every state
of a run, exactly when no echo of the run asks for a reply or names a
sender. -/
theorem once_at_ingest_iff
    (w : Wording) (pool : EnginePool) (ls : List (Label Unit HostEvent))
    (hrun : ((host w).exec { shared := { pool := pool }, threads := [] }
      ls).isSome) :
    AllStates (host w) OnceAtIngest { shared := { pool := pool }, threads := [] }
        ls ↔
      AllSteps (host w) QuietEcho { shared := { pool := pool }, threads := [] }
        ls := by
  refine allStates_iff_allSteps (I := OnceAtIngest) id ?_ ?_ ?_ hrun
  · rintro s s' (⟨i, a⟩ | ev) honce hok hfire
    · obtain ⟨f, -⟩ := fire_run_cases hfire
      exact f.elim
    obtain ⟨r, hr, rfl⟩ := fire_world_cases hfire
    cases ev with
    | engine l =>
        obtain ⟨pool', -, rfl⟩ := Option.map_eq_some_iff.mp hr
        exact honce
    | received inputs moduleName msg =>
        obtain ⟨h', hreceive, rfl⟩ := Option.map_eq_some_iff.mp hr
        obtain ⟨heffects, hcalled⟩ := Host.receive_cases hreceive
        intro uuid7
        obtain ⟨hsame, hnodup⟩ := honce uuid7
        rcases hcalled with ⟨hecho, hcalled⟩ | ⟨-, hunseen, hcalled⟩
        · have hsilent : (msg.rawMessage.map (callsFor w inputs)).getD [] = [] := by
            cases hraw : msg.rawMessage with
            | none => rfl
            | some chat => exact callsFor_eq_nil_iff.mpr (hok hecho chat hraw)
          simp only [heffects, hcalled, hsilent, ite_self, List.append_nil]
          exact ⟨hsame, hnodup⟩
        · simp only [heffects, hcalled]
          refine ⟨by rw [hsame], ?_⟩
          by_cases hu : subject inputs msg = uuid7
          · subst hu
            rw [hsame, hunseen, List.nil_append, if_pos rfl]
            cases msg.rawMessage with
            | none => exact List.nodup_nil
            | some chat => exact callsFor_nodup
          · rwa [if_neg hu, List.append_nil]
  · rintro s s' (⟨i, a⟩ | ev) honce hfire hafter
    · trivial
    obtain ⟨r, hr, rfl⟩ := fire_world_cases hfire
    cases ev with
    | engine l => trivial
    | received inputs moduleName msg =>
        obtain ⟨h', hreceive, rfl⟩ := Option.map_eq_some_iff.mp hr
        obtain ⟨heffects, hcalled⟩ := Host.receive_cases hreceive
        intro hecho chat hraw
        rcases hcalled with ⟨-, hcalled⟩ | ⟨hingest, -⟩
        · -- The echo adds to the ledger alone, so it must have added nothing.
          have hsame := (hafter (subject inputs msg)).1
          rw [heffects, hcalled, if_pos rfl, hraw,
            (honce (subject inputs msg)).1] at hsame
          exact callsFor_eq_nil_iff.mp (List.append_right_eq_self.mp hsame)
        · exact absurd hingest hecho
  · intro uuid7
    exact ⟨rfl, List.nodup_nil⟩

/-- A chat message as its adapter sends it. -/
def greeting (text sender : String) : ChatMessage where
  platform := "twitch"
  rawData := []
  rawMessage := text
  userUuid7 := sender
  command := none
  channelId := "c1"
  userData := none

/-- A module sends a message back without its sender. -/
def countedOnce : List (Label Unit HostEvent) :=
  [.world (.received { uuid7 := "m1" } "twitch-adapter"
      { messageUuid7 := "", rawMessage := some (greeting "hi" "u1") }),
    .world (.received { uuid7 := "" } "censor"
      { messageUuid7 := "m1", rawMessage := some (greeting "h*" "") })]

theorem once_at_ingest_iff_countedOnce :
    AllStates (host ⟨fun _ _ => "", fun _ _ _ _ => ""⟩) OnceAtIngest
      { shared := { pool := { shared := {}, threads := [] } }, threads := [] }
      countedOnce :=
  (once_at_ingest_iff _ _ countedOnce rfl).mpr (by decide)

/-- A module sends a message back as it got it. -/
def countedTwice : List (Label Unit HostEvent) :=
  [.world (.received { uuid7 := "m1" } "twitch-adapter"
      { messageUuid7 := "", rawMessage := some (greeting "hi" "u1") }),
    .world (.received { uuid7 := "" } "censor"
      { messageUuid7 := "m1", rawMessage := some (greeting "h*" "u1") })]

/-- The sender of the echoed message has two messages counted for it. -/
theorem counted_again_by_echo :
    ¬ ∀ (w : Wording) (ls : List (Label Unit HostEvent)) (s : Pool Host Empty),
      (host w).exec
          { shared := { pool := { shared := {}, threads := [] } }, threads := [] }
          ls = some s →
      OnceAtIngest s := by
  intro h
  have hnodup := (h ⟨fun _ _ => "", fun _ _ _ _ => ""⟩ countedTwice _ rfl "m1").2
  exact absurd hnodup (by decide)

end CockatielEngine
