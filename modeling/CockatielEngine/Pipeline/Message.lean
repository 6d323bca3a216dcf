import CockatielEngine.Commands.CommandRegistry
import CockatielEngine.Database.Timeline
import CockatielEngine.Pipeline.AckTracker

/-!
# Pipeline: messages, their in-memory state and their stage containers

The state the engine keeps for a message in flight, the containers it sends to
the modules of each stage, and the pure updates the stages make to the state.
-/

namespace CockatielEngine

structure PipelineConfig where
  preProcessModules : List String := []
  inProcessModules : List String := []
  postProcessModules : List String := []
  ackTimeoutMs : Nat := 3000
  criticalModules : List String := []
deriving DecidableEq, Repr

/-- How many times a stage message is re-sent for want of a receipt. -/
def maxAckResends : Nat := 3

/-- The outcome of a bounded send to a module. -/
inductive SendOutcome where
  | sent
  | notConnected
  | dropped
deriving DecidableEq, Repr

inductive PipelineStage where
  | inserted
  | preProcessing
  | inProcessing
  | postProcessing
  | complete
  | failed
deriving DecidableEq, Repr

structure Ban where
  commenderUuid7 : String
  commendeeUuid7 : String
  unbanned : Bool
  reason : String
deriving DecidableEq, Repr

/-- The enriched user record that travels with a message. -/
structure UserData where
  uuid : String
  username : String
  isSponsor : Bool := false
  isModerator : Bool := false
  isAdmin : Bool := false
  isOwner : Bool := false
  bans : List Ban := []
  cssProperties : List (String × String) := []
deriving DecidableEq, Repr

structure ChatMessage where
  platform : String
  rawData : Bytes
  rawMessage : String
  userUuid7 : String
  command : Option Command
  channelId : String
  userData : Option UserData
deriving DecidableEq, Repr

/-- The stage message inside a container. -/
inductive ModulePayload where
  | messagePreProcess (messageUuid7 : String) (rawMessage : ChatMessage)
      (audio : Bytes) (audioType : String)
  | messageInProcess (messageUuid7 : String) (rawMessage : ChatMessage)
      (processedMessage : String) (abandonMessage : Bool)
      (audio : Bytes) (audioType : String)
  | messagePostProcess (messageUuid7 : String) (rawMessage : ChatMessage)
      (processedMessage : String) (audio : Bytes) (audioType : String)
deriving DecidableEq, Repr

structure ContainerForModule where
  version : Nat := 2
  authToken : String := ""
  moduleInstanceUuid7 : String := ""
  payload : ModulePayload
deriving DecidableEq, Repr

/-- A message as ingest hands it to the pipeline. -/
structure PipelineMessage where
  uuid7 : String
  rawMessage : String
  platform : String := ""
  eventType : Int := 1
  command : Option String := none
  flags : Option String := none
  parsedCommand : Option Command := none
  channelId : String := ""
  userUuid7 : String := ""
  userData : Option UserData := none
  rawData : Bytes := []
deriving DecidableEq, Repr

/-- The in-memory state of a message in flight. -/
structure PipelineState where
  uuid7 : String
  stage : PipelineStage
  currentInProcessIndex : Nat
  rawMessage : String
  processedMessage : String
  platform : String
  eventType : Int
  command : Option String
  flags : Option String
  parsedCommand : Option Command
  channelId : String
  userUuid7 : String
  userData : Option UserData
  audio : Bytes
  audioType : String
  audioStage : String
  preProcessCompletedAt : Option Nat
  inProcessCompletedAt : Option Nat
  audioTypeMarkers : List String
  rawData : Bytes
deriving DecidableEq, Repr

namespace PipelineState

/-- The state a freshly ingested message starts with. -/
def ofMessage (msg : PipelineMessage) : PipelineState where
  uuid7 := msg.uuid7
  stage := .preProcessing
  currentInProcessIndex := 0
  rawMessage := msg.rawMessage
  processedMessage := msg.rawMessage
  platform := msg.platform
  eventType := msg.eventType
  command := msg.command
  flags := msg.flags
  parsedCommand := msg.parsedCommand
  channelId := msg.channelId
  userUuid7 := msg.userUuid7
  userData := msg.userData
  audio := []
  audioType := ""
  audioStage := ""
  preProcessCompletedAt := none
  inProcessCompletedAt := none
  audioTypeMarkers := []
  rawData := msg.rawData

/-- The state recovery rebuilds from a stranded row: what the row does not
store is lost. -/
def ofQueued (uuid7 : String) (msg : QueuedMessage) : PipelineState where
  uuid7 := uuid7
  stage := .preProcessing
  currentInProcessIndex := 0
  rawMessage := msg.rawMessage
  processedMessage := msg.rawMessage
  platform := msg.platform
  eventType := msg.eventType
  command := if msg.command = "" then none else some msg.command
  flags := if msg.flags = "" then none else some msg.flags
  parsedCommand := none
  channelId := ""
  userUuid7 := msg.userUuid7
  userData := none
  audio := []
  audioType := ""
  audioStage := ""
  preProcessCompletedAt := none
  inProcessCompletedAt := none
  audioTypeMarkers := []
  rawData := []

/-- The chat message every stage forwards. -/
def chatMessage (s : PipelineState) : ChatMessage where
  platform := s.platform
  rawData := s.rawData
  rawMessage := s.rawMessage
  userUuid7 := s.userUuid7
  command := s.parsedCommand
  channelId := s.channelId
  userData := s.userData

/-- The container of the pre-process fanout. -/
def preProcessContainer (uuid7 : String) (s : PipelineState) :
    ContainerForModule :=
  { payload := .messagePreProcess uuid7 s.chatMessage [] "" }

/-- The container of one in-process dispatch. -/
def inProcessContainer (uuid7 : String) (s : PipelineState) :
    ContainerForModule :=
  { payload :=
      .messageInProcess uuid7 s.chatMessage s.processedMessage false [] "" }

/-- Audio flows forward to post-process unless post-process made it. -/
def forwardedAudio (s : PipelineState) : Bytes × String :=
  if s.audioStage = "post" ∨ s.audio.isEmpty then ([], "")
  else (s.audio, s.audioType)

/-- The container of the post-process fanout. -/
def postProcessContainer (uuid7 : String) (s : PipelineState) :
    ContainerForModule :=
  { payload :=
      .messagePostProcess uuid7 s.chatMessage s.processedMessage
        s.forwardedAudio.1 s.forwardedAudio.2 }

/-- The chat message that a re-send rebuilds. -/
def resendMessage (s : PipelineState) : ChatMessage where
  platform := s.platform
  rawData := s.rawData
  rawMessage := s.rawMessage
  userUuid7 := s.userUuid7
  command := s.parsedCommand
  channelId := s.channelId
  userData := s.userData

/-- The container a re-send rebuilds for a stage: it never carries audio. -/
def resendContainer (uuid7 : String) (s : PipelineState) :
    Stage → ContainerForModule
  | .preProcess =>
      { payload := .messagePreProcess uuid7 s.resendMessage [] "" }
  | .inProcess =>
      { payload :=
          .messageInProcess uuid7 s.resendMessage s.processedMessage false [] "" }
  | .postProcess =>
      { payload :=
          .messagePostProcess uuid7 s.resendMessage s.processedMessage [] "" }

/-- The accumulated result of the run, in the shape of the terminal write. -/
def result (s : PipelineState) : PipelineResult where
  processedMessage := some s.processedMessage
  preProcessCompletedAt := s.preProcessCompletedAt
  inProcessCompletedAt := s.inProcessCompletedAt
  audio := if s.audio.isEmpty then none else some (s.audioType, s.audio)
  audioTypeMarkers := s.audioTypeMarkers

/-- Record rendered audio on the state; empty audio changes nothing. -/
def storeAudio (stage audioType : String) (audio : Bytes)
    (s : PipelineState) : PipelineState :=
  if audio.isEmpty then s
  else
    let mime := if audioType = "" then "audio/mpeg" else audioType
    let marker := "audio_type=" ++ mime
    { s with
      audio := audio
      audioType := mime
      audioStage := stage
      audioTypeMarkers :=
        if s.audioTypeMarkers.contains marker then s.audioTypeMarkers
        else s.audioTypeMarkers ++ [marker] }

end PipelineState

/-- The stage's name in `audio_stage`. -/
def Stage.audioStage : Stage → String
  | .preProcess => "pre"
  | .inProcess => "in"
  | .postProcess => "post"

/-- A module's answer to a stage message. -/
structure StageReply where
  uuid7 : String
  moduleName : String
  stage : Stage
  processedMessage : String := ""
  audioType : String := ""
  audio : Bytes := []
  abandonMessage : Bool := false
deriving DecidableEq, Repr

/-- The reason recorded when a module abandons a message. -/
def abandonReason (moduleName : String) : String :=
  "abandoned by module '" ++ moduleName ++ "'"

/-- The error recorded when a critical module times out. -/
def criticalTimeoutError (moduleName : String) (stage : Stage) : String :=
  "Critical module '" ++ moduleName ++ "' timed out at stage '" ++
    stage.asStr ++ "'"

end CockatielEngine
