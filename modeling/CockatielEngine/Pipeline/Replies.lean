import CockatielEngine.Pipeline.Ingest

/-!
# Pipeline: module replies and the way out of a stage

`handle_message_from_module` for a module's receipt and stage reply, then
`handle_ack`.  The steps by which a message leaves its stage (`AdvanceFrame`)
are shared with the timeout sweep.
-/

namespace CockatielEngine

open TaskPool

namespace ReplyFrame

/-- A receipt finds an entry to mark. -/
def receiptRecorded (t : AckTracker) (uuid7 moduleName : String) : Bool :=
  t.pending.any (PendingAck.isFor uuid7 moduleName)

/-- What an ack puts on record: every entry of the module that it removes. -/
def answers (t : AckTracker) (uuid7 moduleName : String) : List Event :=
  (t.pending.filter (PendingAck.isFor uuid7 moduleName)).map fun e =>
    .answered uuid7 e.stage moduleName

def step (e : Engine) : ReplyFrame → Outcome Engine Frame
  | .check reply =>
      let owns :=
        e.ackTracker.isPendingFor reply.uuid7 reply.moduleName reply.stage
      go (e.logged
          (.replyTaken reply.uuid7 reply.stage reply.moduleName owns))
        (if owns then [.reply (.record reply)] else [])
  | .record reply =>
      go (e.modifyState reply.uuid7 fun s =>
          { s with processedMessage := reply.processedMessage })
        [.reply (.audio reply)]
  | .audio reply =>
      go (e.modifyState reply.uuid7
          (PipelineState.storeAudio reply.stage.audioStage reply.audioType
            reply.audio))
        (if reply.stage = .inProcess ∧ reply.abandonMessage then
          [.terminal (.check reply.uuid7
            (.dropped (abandonReason reply.moduleName)))]
         else [.reply (.ackConfig reply.uuid7 reply.moduleName)])
  | .ackConfig uuid7 moduleName =>
      go e [.reply (.ackModule uuid7 moduleName
        e.config.inProcessModules.length)]
  | .ackModule uuid7 moduleName len =>
      match e.ackTracker.ackModule e.now uuid7 moduleName with
      | (none, _) => go e []
      | (some (stage, _, stillPending), tracker) =>
          let e :=
            { e with
              ackTracker := tracker
              log := answers e.ackTracker uuid7 moduleName ++ e.log }
          match stage with
          | .preProcess =>
              go e (if stillPending then [] else [.advance (.notePre uuid7)])
          | .inProcess => go e [.advance (.noteIn uuid7 len)]
          | .postProcess =>
              if stillPending then go e []
              else go (e.logged (.left uuid7 .postProcess))
                [.terminal (.check uuid7 .complete)]
  | .receipt uuid7 moduleName =>
      go ({ e with
              ackTracker := e.ackTracker.markReceipt uuid7 moduleName }.logged
          (.receiptTaken uuid7 moduleName
            (receiptRecorded e.ackTracker uuid7 moduleName)))
        []

end ReplyFrame

namespace AdvanceFrame

def step (e : Engine) (a : Answer) : AdvanceFrame → Outcome Engine Frame
  | .notePre uuid7 =>
      go ((e.modifyState uuid7 fun s =>
          { s with preProcessCompletedAt := some e.now }).logged
            (.left uuid7 .preProcess))
        [.inProcess (.enter uuid7)]
  | .noteIn uuid7 len =>
      go (e.modifyState uuid7 fun s =>
          { s with inProcessCompletedAt := some e.now })
        [.advance (.nextIndex uuid7 len)]
  | .nextIndex uuid7 len =>
      match e.pipelineStates uuid7 with
      | none => go e []
      | some state =>
          let nextIndex := state.currentInProcessIndex + 1
          go (e.putState uuid7
              (some { state with currentInProcessIndex := nextIndex }))
            (if len ≤ nextIndex then [.advance (.refresh uuid7)]
             else [.inProcess (.enter uuid7)])
  | .refresh uuid7 =>
      -- only a message with a user is looked up; a failed lookup keeps the
      -- user data captured at ingest
      match (e.pipelineStates uuid7).filter (fun s => s.userUuid7 ≠ ""),
          a.userData with
      | some _, some userData =>
          go e [.advance (.storeUserData uuid7 userData)]
      | _, _ => go e [.postProcess (.enter uuid7)]
  | .storeUserData uuid7 userData =>
      go (e.modifyState uuid7 fun s => { s with userData := some userData })
        [.postProcess (.enter uuid7)]

end AdvanceFrame
end CockatielEngine
