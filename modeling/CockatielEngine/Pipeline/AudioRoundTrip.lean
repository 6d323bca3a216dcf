import CockatielEngine.Database.TerminalWrite
import CockatielEngine.Pipeline.DriveReturns

/-!
# Pipeline: rendered audio read back

The bytes of rendered audio are stored in a column of their own; its content type
is one marker among the comma-separated flags, where `get_audio` looks for the
first one.

**Main result.**  After a message's run `get_audio` returns the last audio of the
run with its own content type exactly when the first marker on the row, one that
its flags already had or the first of the run, names that type.
-/

namespace CockatielEngine

open TaskPool

namespace Row

/-- The content type that the flags name. -/
def audioTypeIn (flags : String) : Option String :=
  firstValue ',' "audio_type=" flags

def getAudio (row : Row) : Option (String × Bytes) :=
  match row.dataBlob with
  | some bytes =>
      if bytes.isEmpty then none
      else some ((audioTypeIn (row.flags.getD "")).getD "audio/mpeg", bytes)
  | none => none

/-- The terminal write of a message: a held row keeps its hold. -/
def endRun (ending : Ending) (result : PipelineResult) (now : Nat) (row : Row) :
    Row :=
  if row.pipelineStatus = .audit then row.writeTerminalOutcome .auditHeld result now
  else row.writeTerminalOutcome ending.outcome result now

end Row

section Ends

variable {world : Frame → Answer} {e e' : Engine} {u : String} {row : Row}
variable {state : PipelineState} {ending : Ending}

/-- What a terminal path that returns leaves in the row of its message. -/
theorem row?_of_returns_terminal
    (hrow : e.timeline.row? u = some row)
    (hstate : e.pipelineStates u = some state)
    (h : Returns engine world e [.terminal (.check u ending)] e') :
    e'.timeline.row? u = some (row.endRun ending state.result e.now) := by
  have haudited : e.timeline.isAudited u = decide (row.pipelineStatus = .audit) := by
    simp [Timeline.isAudited, hrow]
  by_cases hdb : (world (.terminal (.check u ending))).dbOk = true
  · by_cases hheld : row.pipelineStatus = .audit
    · rw [returns_go e [.terminal (.snapshot u)]
          (by simp [Frame.step, TerminalFrame.step, hdb, haudited, hheld]),
        List.append_nil,
        returns_go e [.terminal (.writeHeld u state.result)]
          (by simp [Frame.step, TerminalFrame.step, hstate]), List.append_nil] at h
      by_cases hwrite : (world (.terminal (.writeHeld u state.result))).dbOk = true
      · rw [returns_go _ []
            (by simp only [Frame.step, TerminalFrame.step, hwrite, if_true]; rfl),
          List.append_nil, Returns.nil_iff] at h
        subst h
        simp [Timeline.writeTerminalOutcome, hrow, Row.endRun, hheld]
      · exact absurd h
          (not_returns_of_fail (by simp [Frame.step, TerminalFrame.step, hwrite]))
    · rw [returns_go e [.terminal (.take u ending)]
          (by simp [Frame.step, TerminalFrame.step, hdb, haudited, hheld]),
        List.append_nil,
        returns_go (e.putState u none) [.terminal (.write u ending state.result)]
          (by simp [Frame.step, TerminalFrame.step, hstate]), List.append_nil] at h
      by_cases hwrite : (world (.terminal (.write u ending state.result))).dbOk = true
      · rw [returns_go _ [.terminal (.ack u)]
            (by simp only [Frame.step, TerminalFrame.step, hwrite, if_true]; rfl),
          List.append_nil, returns_go _ [] rfl, List.append_nil, Returns.nil_iff] at h
        subst h
        simp [Timeline.writeTerminalOutcome, Engine.logged, Engine.putState, hrow,
          Row.endRun, hheld, Engine.now]
      · exact absurd h
          (not_returns_of_fail (by simp [Frame.step, TerminalFrame.step, hwrite]))
  · exact absurd h (not_returns_of_fail (by simp [Frame.step, TerminalFrame.step, hdb]))

end Ends

section RoundTrip

variable {s : PipelineState} {row : Row} {first last : AudioStore} {m : String}
variable {stores : List AudioStore} {ending : Ending} {now : Nat} {ms : List String}

theorem head?_noted :
    (noted ms).head? = ms.head? := by
  induction ms using List.reverseRecOn with
  | nil => rfl
  | append_singleton ms m ih =>
      cases ms with
      | nil => rfl
      | cons a ms =>
          rw [noted_concat]
          split
          · rw [ih]
            rfl
          · rw [List.head?_append, ih]
            rfl

/-- Whatever ends a run, its audio lands on the row. -/
theorem endRun_audio
    (hne : markersOf stores ≠ []) :
    (row.endRun ending (s.afterStores stores).result now).dataBlob =
        (lastAudio stores).map (·.audio) ∧
      (row.endRun ending (s.afterStores stores).result now).flags =
        some (addFields ',' (row.flags.getD "") (noted (markersOf stores))) := by
  have hlast : (lastAudio stores).isSome = true := by
    rw [Option.isSome_iff_ne_none]
    exact mt markersOf_eq_nil_iff.mpr hne
  have hlands (outcome : PipelineOutcome)
      (hlands : ¬ (outcome = .complete ∧ row.pipelineStatus = .audit)) :
      (row.writeTerminalOutcome outcome (s.afterStores stores).result
          now).dataBlob = (lastAudio stores).map (·.audio) ∧
        (row.writeTerminalOutcome outcome (s.afterStores stores).result now).flags =
          some (addFields ',' (row.flags.getD "") (noted (markersOf stores))) := by
    obtain ⟨x, hx⟩ := Option.isSome_iff_exists.mp hlast
    rw [writeTerminalOutcome_eq hlands, writeInTurn_eq]
    simp [hne, hx]
  unfold Row.endRun
  split
  · exact hlands _ (by simp)
  · rename_i hheld
    exact hlands _ (by simp [hheld])

/-- The content type of the flags with the run's markers: the one the flags
already name, or what is left of the run's first up to a separator. -/
theorem audioTypeIn_addFields
    {f : String}
    (hfirst : ms.head? = some (audioMarker m)) :
    Row.audioTypeIn (addFields ',' f (noted ms)) =
      some ((Row.audioTypeIn f).getD (upTo ',' m)) := by
  have hkey : "audio_type=" ≠ "" := by decide
  obtain ⟨rest, hrest⟩ : ∃ rest, noted ms = audioMarker m :: rest :=
    List.head?_eq_some_iff.mp (head?_noted.trans hfirst)
  have hmarker : firstValue ',' "audio_type=" (audioMarker m) = some (upTo ',' m) :=
    firstValue_key (by decide)
  have hone : firstValue ',' "audio_type=" (addField ',' f (audioMarker m)) =
      some ((Row.audioTypeIn f).getD (upTo ',' m)) := by
    rw [firstValue_addField hkey, hmarker, Row.audioTypeIn]
    cases firstValue ',' "audio_type=" f <;> rfl
  have hcons : addFields ',' f (noted ms) =
      addFields ',' (addField ',' f (audioMarker m)) rest := by
    rw [hrest]
    rfl
  rw [hcons]
  exact firstValue_addFields hkey hone

/-- A run whose calls all bring audio keeps each of them. -/
theorem filter_stores
    (haudio : ∀ x ∈ stores, x.audio ≠ []) :
    stores.filter (fun x => !x.audio.isEmpty) = stores := by
  rw [List.filter_eq_self]
  intro x hx
  simpa using haudio x hx

theorem head?_markersOf
    (hstores : stores ≠ [])
    (haudio : ∀ x ∈ stores, x.audio ≠ []) :
    (markersOf stores).head? = some (audioMarker (stores.head hstores).mime) := by
  rw [markersOf, filter_stores haudio, List.head?_map, List.head?_eq_some_head hstores]
  rfl

theorem lastAudio_eq
    (hstores : stores ≠ [])
    (haudio : ∀ x ∈ stores, x.audio ≠ []) :
    lastAudio stores = some (stores.getLast hstores) := by
  rw [lastAudio, filter_stores haudio, List.getLast?_eq_some_getLast hstores]

/-- What `get_audio` returns after the run: the bytes of its last audio, and the
content type that comes first on the row. -/
theorem getAudio_endRun
    (hstores : stores ≠ [])
    (haudio : ∀ x ∈ stores, x.audio ≠ []) :
    (row.endRun ending (s.afterStores stores).result now).getAudio =
      some ((Row.audioTypeIn (row.flags.getD "")).getD
          (upTo ',' (stores.head hstores).mime),
        (stores.getLast hstores).audio) := by
  have hfirst := head?_markersOf hstores haudio
  have hne : markersOf stores ≠ [] := by
    intro hnil
    simp [hnil] at hfirst
  have hlast : (stores.getLast hstores).audio.isEmpty = false := by
    simpa using haudio _ (List.getLast_mem hstores)
  obtain ⟨hblob, hflags⟩ :
      (row.endRun ending (s.afterStores stores).result now).dataBlob = _ ∧
        (row.endRun ending (s.afterStores stores).result now).flags = _ :=
    endRun_audio hne
  rw [Row.getAudio, hblob, hflags, lastAudio_eq hstores haudio]
  simp [hlast, audioTypeIn_addFields hfirst]

/-- **Main theorem.**  When the audio of a run is read back as it was stored. -/
theorem getAudio_endRun_iff
    (row : Row) (s : PipelineState) (stores : List AudioStore) (ending : Ending)
    (now : Nat)
    (hstores : stores ≠ [])
    (haudio : ∀ x ∈ stores, x.audio ≠ []) :
    (row.endRun ending (s.afterStores stores).result now).getAudio =
        some ((stores.getLast hstores).mime, (stores.getLast hstores).audio) ↔
      (Row.audioTypeIn (row.flags.getD "")).getD
          (upTo ',' (stores.head hstores).mime) = (stores.getLast hstores).mime := by
  rw [getAudio_endRun hstores haudio]
  simp

/-- A donation whose first audio and last audio are of one type. -/
theorem getAudio_endRun_donation :
    (({ eventType := 1, platform := "twitch", rawMessage := "hi", command := "",
        flags := some "donation=5 USD" } : Row).endRun .complete
        ((PipelineState.ofMessage { uuid7 := "m", rawMessage := "hi" }).afterStores
          [⟨.preProcess, "", [1]⟩, ⟨.inProcess, "audio/mpeg", [2]⟩]).result 5).getAudio =
      some ("audio/mpeg", [2]) :=
  (getAudio_endRun_iff
    { eventType := 1
      platform := "twitch"
      rawMessage := "hi"
      command := ""
      flags := some "donation=5 USD" }
    (.ofMessage { uuid7 := "m", rawMessage := "hi" })
    [⟨.preProcess, "", [1]⟩, ⟨.inProcess, "audio/mpeg", [2]⟩] .complete 5 (by simp)
    (by simp)).mpr (by decide)

/-- A content type that lists two codecs. -/
theorem codecs_cut_at_comma :
    ¬ ∀ (row : Row) (s : PipelineState) (stores : List AudioStore) (ending : Ending)
        (now : Nat) (hstores : stores ≠ []), (∀ x ∈ stores, x.audio ≠ []) →
      (row.endRun ending (s.afterStores stores).result now).getAudio =
        some ((stores.getLast hstores).mime, (stores.getLast hstores).audio) := by
  intro h
  have hread := h
    { eventType := 1
      platform := "twitch"
      rawMessage := "hi"
      command := ""
      flags := some "\x7b\x7d" }
    (.ofMessage { uuid7 := "m", rawMessage := "hi" })
    [⟨.preProcess, "audio/ogg; codecs=opus,vorbis", [1]⟩] .complete 5 (by simp)
    (by simp)
  exact absurd hread (by decide)

end RoundTrip

end CockatielEngine
