import Mathlib.Data.List.Basic
import Mathlib.Data.String.Basic
import Mathlib.Tactic

/-!
# Queries: routes and the dispatcher's gate

A query is routed by its name, and the dispatcher asks of the route whether the
caller may use it at all.  The routes whose gate is in their handler are open
here.
-/

namespace CockatielEngine

/-- Where the dispatcher sends a query. -/
inductive QueryRoute where
  | dbStatus
  | moduleList
  | engineInfo
  | pipelineSetPaused
  | engineShutdown
  | testRun
  | testProbe
  | auditList
  | auditApprove
  | auditReject
  | modFamily
  | chatCommend
  | chatReprimand
  | chatVerifyIdentity
  | chatReply
  | userdbAdjustScore
  | predictionGetScore
  | channelViewers
  | streamLeaderboard
  | streamLeaderboardReport
  | streamControl
  | streamSchedule
  | streamControlStatus
  | userdbBlock
  | moduleBansReport
  | userdbFamily
  | setCredentials
  | testArchive
  | stats
  | unsupported
deriving DecidableEq, Repr

/-- The text starts with the prefix. -/
def startsWith (s start : String) : Bool :=
  start.toList.isPrefixOf s.toList

/-- The names that are matched before the prefix `mod_`. -/
def classifyEngineQuery (queryId : String) : Option QueryRoute :=
  match queryId with
  | "db_status" => some .dbStatus
  | "module_list" => some .moduleList
  | "engine_info" => some .engineInfo
  | "pipeline_set_paused" => some .pipelineSetPaused
  | "engine_shutdown" => some .engineShutdown
  | "test_run" => some .testRun
  | "test_probe" => some .testProbe
  | "audit_list" => some .auditList
  | "audit_approve" => some .auditApprove
  | "audit_reject" => some .auditReject
  | _ => none

/-- The names between the two prefixes. -/
def classifyChatQuery (queryId : String) : Option QueryRoute :=
  match queryId with
  | "chat_commend" => some .chatCommend
  | "chat_reprimand" => some .chatReprimand
  | "chat_verify_identity" => some .chatVerifyIdentity
  | "chat_reply" => some .chatReply
  | "userdb_adjust_score" => some .userdbAdjustScore
  | "userdb_block" => some .userdbBlock
  | "userdb_unblock" => some .userdbBlock
  | "module_bans_report" => some .moduleBansReport
  | _ => none

/-- The names after the prefix `userdb_`. -/
def classifyStreamQuery (queryId : String) : Option QueryRoute :=
  match queryId with
  | "prediction_get_score" => some .predictionGetScore
  | "channel_viewers" => some .channelViewers
  | "stream_leaderboard" => some .streamLeaderboard
  | "leaderboard_report" => some .streamLeaderboardReport
  | "stream_control" => some .streamControl
  | "stream_schedule" => some .streamSchedule
  | "stream_control_status" => some .streamControlStatus
  | "set_credentials" => some .setCredentials
  | "test_archive" => some .testArchive
  | "stats" => some .stats
  | _ => none

/-- The order of the tests is the behaviour. -/
def classifyQuery (queryId : String) : QueryRoute :=
  match classifyEngineQuery queryId with
  | some route => route
  | none =>
      if startsWith queryId "mod_" then .modFamily
      else
        match classifyChatQuery queryId with
        | some route => route
        | none =>
            if startsWith queryId "userdb_" then .userdbFamily
            else (classifyStreamQuery queryId).getD .unsupported

/-- The operator's control surface. -/
def isControlSurface (name : String) : Bool :=
  decide (name = "cockatiel-tui" ∨ name = "cockatiel-tui-child")

def isTestRunner (name : String) : Bool :=
  decide (name = "cockatiel-test-runner")

/-- A platform adapter that may report on stream control. -/
def isStreamAdapter (caller : String) : Bool :=
  decide (caller ∈ ["twitch-adapter", "youtube-adapter", "kick-adapter",
    "discord-adapter", "stream-manager-stub"])

/-- Refuse a caller who is not admitted. -/
def unlessAdmitted (admitted : Bool) (denial : String) : Option String :=
  if admitted then none else some denial

/-- The denial of the dispatcher; `none` lets the caller through. -/
def callerGate (route : QueryRoute) (caller : String) : Option String :=
  match route with
  | .testRun =>
      unlessAdmitted (isControlSurface caller)
        "Test runner access denied: not the TUI"
  | .testProbe =>
      unlessAdmitted (isControlSurface caller || isTestRunner caller)
        "test_probe denied: not the TUI/test-runner"
  | .pipelineSetPaused =>
      unlessAdmitted (isControlSurface caller)
        "pipeline_set_paused denied: not the TUI"
  | .engineShutdown =>
      unlessAdmitted (isControlSurface caller)
        "engine_shutdown denied: not the TUI"
  | .auditList | .auditApprove | .auditReject =>
      unlessAdmitted (isControlSurface caller) "Audit access denied: not the TUI"
  | .userdbAdjustScore =>
      unlessAdmitted
        (isControlSurface caller || caller == "score-messages" ||
          caller == "events")
        "userdb_adjust_score denied: not the TUI, score-messages, or events"
  | .chatReply =>
      unlessAdmitted (isControlSurface caller || caller == "clip")
        "chat_reply denied: not the clip module or the TUI"
  | .predictionGetScore =>
      unlessAdmitted (isControlSurface caller || caller == "events")
        "prediction_get_score denied: not the events module"
  | .userdbFamily =>
      unlessAdmitted (isControlSurface caller)
        "User database access denied: not the TUI"
  | .setCredentials =>
      unlessAdmitted (isControlSurface caller) "set_credentials denied: not the TUI"
  | .testArchive =>
      unlessAdmitted (isTestRunner caller)
        "test_archive access denied: not the test runner"
  | .stats =>
      unlessAdmitted (isControlSurface caller)
        "stats access denied: not the control surface"
  | .streamLeaderboard =>
      unlessAdmitted (isControlSurface caller)
        "stream_leaderboard denied: not the TUI"
  | .streamLeaderboardReport =>
      unlessAdmitted (caller == "stream-leaderboard")
        "leaderboard_report denied: not the stream-leaderboard module"
  | .streamControl =>
      unlessAdmitted (isControlSurface caller) "stream_control denied: not the TUI"
  | .streamControlStatus =>
      unlessAdmitted (isStreamAdapter caller)
        "stream_control_status denied: not a platform adapter"
  | .unsupported => some "query denied: no such operation"
  | .userdbBlock | .moduleBansReport | .dbStatus | .moduleList | .engineInfo
  | .modFamily | .chatCommend | .chatReprimand | .chatVerifyIdentity
  | .streamSchedule | .channelViewers => none

section Lemmas

variable {queryId : String}

/-- A query of the moderation family carries its prefix. -/
theorem startsWith_of_modFamily
    (h : classifyQuery queryId = .modFamily) :
    startsWith queryId "mod_" = true := by
  unfold classifyQuery at h
  split at h
  · rename_i route hengine
    subst h
    unfold classifyEngineQuery at hengine
    split at hengine <;> simp at hengine
  · by_contra hprefix
    rw [if_neg hprefix] at h
    split at h
    · rename_i route hchat
      subst h
      unfold classifyChatQuery at hchat
      split at hchat <;> simp at hchat
    · split at h
      · cases h
      · unfold classifyStreamQuery at h
        split at h <;> simp at h

/-- The routes of the chat table are reached through it alone. -/
theorem classifyChatQuery_of_route
    {route : QueryRoute}
    (h : classifyQuery queryId = route)
    (hroute : route = .chatCommend ∨ route = .chatReprimand ∨
      route = .userdbBlock) :
    classifyChatQuery queryId = some route := by
  unfold classifyQuery at h
  split at h
  · rename_i engine hengine
    subst h
    unfold classifyEngineQuery at hengine
    split at hengine <;> simp at hengine <;> simp [← hengine] at hroute
  · split at h
    · simp [← h] at hroute
    · split at h
      · rename_i chat hchat
        rw [hchat, h]
      · split at h
        · simp [← h] at hroute
        · unfold classifyStreamQuery at h
          split at h <;> simp [← h] at hroute

theorem eq_of_chatCommend
    (h : classifyQuery queryId = .chatCommend) :
    queryId = "chat_commend" := by
  have hchat := classifyChatQuery_of_route h (by simp)
  unfold classifyChatQuery at hchat
  split at hchat <;> simp_all

theorem eq_of_chatReprimand
    (h : classifyQuery queryId = .chatReprimand) :
    queryId = "chat_reprimand" := by
  have hchat := classifyChatQuery_of_route h (by simp)
  unfold classifyChatQuery at hchat
  split at hchat <;> simp_all

theorem eq_of_userdbBlock
    (h : classifyQuery queryId = .userdbBlock) :
    queryId = "userdb_block" ∨ queryId = "userdb_unblock" := by
  have hchat := classifyChatQuery_of_route h (by simp)
  unfold classifyChatQuery at hchat
  split at hchat <;> simp_all

/-- The family of the operator does not take them. -/
theorem ne_block_of_userdbFamily
    (h : classifyQuery queryId = .userdbFamily) :
    ¬ (queryId = "userdb_block" ∨ queryId = "userdb_unblock") := by
  rintro (rfl | rfl) <;> exact absurd h (by decide)

end Lemmas

end CockatielEngine
