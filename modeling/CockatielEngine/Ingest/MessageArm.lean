import CockatielEngine.Commands.CommandParsing
import CockatielEngine.Pipeline.Machine

/-!
# Ingest: the arm for pre-process messages

The read loop's arm for `MessagePreProcess`: command handling, the user lookup
and the sent-message count, and then `handle_message_from_module`, which tells
a new message from a module's echo.  What the arm asks of the chat adapters and
of the user database are its side effects.
-/

namespace CockatielEngine

/-- The wire message: a new message when `messageUuid7` is empty, otherwise the
echo of a module. -/
structure MessagePreProcess where
  messageUuid7 : String
  rawMessage : Option ChatMessage
  audio : Bytes := []
  audioType : String := ""
deriving DecidableEq, Repr

/-- A request to the outside that the arm makes. -/
inductive SideEffect where
  | reply (adapter platform channelId text : String)
  | incrementMessagesSent (userUuid7 : String)
deriving DecidableEq, Repr

/-- The wording of the two replies. -/
structure Wording where
  help : CommandRegistry → Option String → String
  apology : CommandRegistry → (who flag name : String) → String

/-- What one run of the arm reads and is answered on its way: the registry at
each of its three reads, the configuration and the connected modules, the
record that the user database returned, what the donation parser and the block
cache said, and the uuid that a new message is given. -/
structure ArmInputs where
  registry : CommandRegistry := {}
  replyRegistry : CommandRegistry := {}
  fetchRegistry : CommandRegistry := {}
  config : PipelineConfig := {}
  connected : List String := []
  found : Option UserData := none
  donationFlags : Option String := none
  cachedBlock : Bool := false
  uuid7 : String
deriving DecidableEq, Repr

/-- The adapters an engine reply goes to. -/
def replyTargets (platform : String) : List String :=
  if platform = "all" then
    ["twitch-adapter", "kick-adapter", "youtube-adapter", "discord-adapter"]
  else if platform = "twitch" then ["twitch-adapter"]
  else if platform = "kick" then ["kick-adapter"]
  else if platform = "youtube" then ["youtube-adapter"]
  else if platform = "discord" then ["discord-adapter"]
  else []

def engineReplyToPlatform (platform channelId text : String) :
    List SideEffect :=
  (replyTargets platform).map fun adapter =>
    .reply adapter platform channelId text

/-- Who an apology addresses. -/
def addressee (chat : ChatMessage) : String :=
  match chat.userData.filter (fun u => u.username ≠ "") with
  | some u => u.username
  | none => if chat.userUuid7 ≠ "" then chat.userUuid7 else "user"

/-- Act on what the raw message asks for; the flag says whether a command was
attached. -/
def handleCommandOnIngest (w : Wording) (inputs : ArmInputs)
    (chat : ChatMessage) : (ChatMessage × Bool) × List SideEffect :=
  match classifyCommand chat.rawMessage inputs.registry with
  | .attach command => (({ chat with command := some command }, true), [])
  | .help module =>
      ((chat, false), engineReplyToPlatform chat.platform chat.channelId
        (w.help inputs.replyRegistry module))
  | .alert flag name =>
      ((chat, false), engineReplyToPlatform chat.platform chat.channelId
        (w.apology inputs.replyRegistry (addressee chat) flag name))
  | .none => ((chat, false), [])

def shouldFetchUserData (commandAttached : Bool) (registry : CommandRegistry)
    (cfg : PipelineConfig) (connected : List String) : Bool :=
  commandAttached || !registry.catchAlls.isEmpty ||
    cfg.postProcessModules.any fun name => connected.contains name

/-- Attach the user record that the lookup or the creation returned. -/
def enrichChatUser (found : Option UserData) (chat : ChatMessage) :
    ChatMessage :=
  if chat.userUuid7 = "" then chat
  else
    match found with
    | none => chat
    | some user => { chat with userUuid7 := user.uuid, userData := some user }

/-- Count the message towards its sender. -/
def countMessage (chat : ChatMessage) : List SideEffect :=
  if chat.userUuid7 = "" then []
  else [.incrementMessagesSent chat.userUuid7]

/-- The chat message after command handling and enrichment, and the side
effects on the way. -/
def processChat (w : Wording) (inputs : ArmInputs) (chat : ChatMessage) :
    ChatMessage × List SideEffect :=
  let r := handleCommandOnIngest w inputs chat
  let enriched :=
    if shouldFetchUserData r.1.2 inputs.fetchRegistry inputs.config
        inputs.connected then
      enrichChatUser inputs.found r.1.1
    else r.1.1
  (enriched, r.2 ++ countMessage enriched)

/-- A user with an active ban, or one the block cache knows, is dropped at the
door unless the message is an appeal. -/
def droppedAtDoor (cachedBlock : Bool) (chat : ChatMessage) : Bool :=
  let banned := (chat.userData.map fun u => u.bans.any (!·.unbanned)).getD false
  let isAppeal :=
    (chat.command.map fun c => decide (c.commandName = "appeal")).getD false
  (banned || cachedBlock) && !isAppeal

/-- The message that ingest hands to the pipeline. -/
def ingestedMessage (inputs : ArmInputs) (chat : ChatMessage) :
    PipelineMessage where
  uuid7 := inputs.uuid7
  rawMessage := chat.rawMessage
  platform := chat.platform
  eventType := 1
  command := none
  flags := inputs.donationFlags
  parsedCommand := chat.command
  channelId := chat.channelId
  userUuid7 := chat.userUuid7
  userData := chat.userData
  rawData := chat.rawData

/-- `handle_message_from_module` for a pre-process message: what it starts in
the pipeline. -/
def handleMessageFromModule (inputs : ArmInputs) (moduleName : String)
    (msg : MessagePreProcess) : Option WorldEvent :=
  if msg.messageUuid7 = "" then
    match msg.rawMessage with
    | none => none
    | some chat =>
        if droppedAtDoor inputs.cachedBlock chat then none
        else some (.ingest (ingestedMessage inputs chat))
  else
    some (.reply
      { uuid7 := msg.messageUuid7
        moduleName := moduleName
        stage := .preProcess
        processedMessage := (msg.rawMessage.map (·.rawMessage)).getD ""
        audioType := msg.audioType
        audio := msg.audio })

/-- The whole arm: its side effects, and what it starts in the pipeline. -/
def messageArm (w : Wording) (inputs : ArmInputs) (moduleName : String)
    (msg : MessagePreProcess) : List SideEffect × Option WorldEvent :=
  match msg.rawMessage with
  | none => ([], handleMessageFromModule inputs moduleName msg)
  | some chat =>
      let r := processChat w inputs chat
      (r.2, handleMessageFromModule inputs moduleName
        { msg with rawMessage := some r.1 })

end CockatielEngine
