import CockatielEngine.Pipeline.Message
import CockatielEngine.Text.Separated

/-!
# Database: the writes of one column at a time

The statements by which a message's row used to follow the message through its
stages, and which the terminal write replaces.  `set_audio` appends the content
type to the row's flags, unless it is one of them.
-/

namespace CockatielEngine

/-- How the content type of rendered audio is spelled in the flags. -/
def audioMarker (mime : String) : String :=
  "audio_type=" ++ mime

/-- The columns that record when a stage was completed. -/
inductive CompletedStage where
  | preProcess
  | inProcess
  | postProcess
  | persisted
deriving DecidableEq, Repr

namespace Row

def updateStageCompleted (stage : CompletedStage) (now : Nat) (row : Row) : Row :=
  match stage with
  | .preProcess => { row with preProcessCompletedAt := some now }
  | .inProcess => { row with inProcessCompletedAt := some now }
  | .postProcess => { row with postProcessCompletedAt := some now }
  | .persisted => { row with persistedAt := some now }

def setPipelineStatus (status : PipelineStatus) (row : Row) : Row :=
  { row with pipelineStatus := status }

def setError (error : String) (row : Row) : Row :=
  { row with errorMessage := some error, pipelineStatus := .failed }

def setProcessedMessage (processed : String) (row : Row) : Row :=
  { row with processedMessage := some processed }

def setFlags (flags : String) (row : Row) : Row :=
  { row with flags := some flags }

/-- The flags with the marker appended, unless it is one of them. -/
def markFlags (flags marker : String) : String :=
  if marker ∈ fields ',' flags then flags else addField ',' flags marker

def setAudio (audioType : String) (audio : Bytes) (row : Row) : Row :=
  { row with
    dataBlob := some audio
    flags := some (markFlags (row.flags.getD "") (audioMarker audioType)) }

end Row

/-- One call of `store_audio`. -/
structure AudioStore where
  stage : Stage
  audioType : String
  audio : Bytes
deriving DecidableEq, Repr

namespace AudioStore

/-- The content type the call stores. -/
def mime (x : AudioStore) : String :=
  if x.audioType = "" then "audio/mpeg" else x.audioType

/-- The call on the state of its message. -/
def onState (s : PipelineState) (x : AudioStore) : PipelineState :=
  s.storeAudio x.stage.audioStage x.audioType x.audio

/-- The same call as a write to the row. -/
def onRow (row : Row) (x : AudioStore) : Row :=
  if x.audio.isEmpty then row else row.setAudio x.mime x.audio

end AudioStore

/-- The markers that the calls leave, one for each that brings audio. -/
def markersOf (stores : List AudioStore) : List String :=
  (stores.filter fun x => !x.audio.isEmpty).map fun x => audioMarker x.mime

/-- The last audio that the calls bring. -/
def lastAudio (stores : List AudioStore) : Option AudioStore :=
  (stores.filter fun x => !x.audio.isEmpty).getLast?

/-- The state before the run has rendered audio. -/
def PipelineState.silent (s : PipelineState) : PipelineState :=
  { s with audio := [], audioType := "", audioStage := "", audioTypeMarkers := [] }

/-- The state after the calls. -/
def PipelineState.afterStores (s : PipelineState) (stores : List AudioStore) :
    PipelineState :=
  stores.foldl AudioStore.onState s.silent

/-- The status a message ends with, and what goes with it. -/
def Row.writeOutcome (outcome : PipelineOutcome) (now : Nat) (row : Row) : Row :=
  match outcome with
  | .complete =>
      ((row.updateStageCompleted .postProcess now).updateStageCompleted
        .persisted now).setPipelineStatus .complete
  | .failed error => row.setError error
  | .dropped reason => (row.setError reason).setPipelineStatus .dropped
  | .audit reason => (row.setFlags reason).setPipelineStatus .audit
  | .auditHeld => row

/-- The stages that the run has completed. -/
def Row.writeStages (s : PipelineState) (row : Row) : Row :=
  let row := s.preProcessCompletedAt.elim row fun now =>
    row.updateStageCompleted .preProcess now
  s.inProcessCompletedAt.elim row fun now => row.updateStageCompleted .inProcess now

/-- The writes of a run, one after the other: its audio, its text, its stages and
its outcome. -/
def Row.writeInTurn (s : PipelineState) (stores : List AudioStore)
    (outcome : PipelineOutcome) (now : Nat) (row : Row) : Row :=
  (((stores.foldl AudioStore.onRow row).setProcessedMessage
    s.processedMessage).writeStages s).writeOutcome outcome now

end CockatielEngine
