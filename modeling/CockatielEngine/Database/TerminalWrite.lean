import CockatielEngine.Database.StageWrites

/-!
# Database: one terminal write for the writes of a run

The terminal write appends the markers that the run has noted to the flags of the
row.  The run notes a marker once, but it does not know the flags; `set_audio`
reads them back, cut at their commas.

**Main result.**  Wherever a run ends, its terminal write leaves the row that its
writes one after the other leave, and a held row is not changed by a second one,
exactly when the flags and the markers keep clear of each other and the outcome
meets the row as it should.
-/

namespace CockatielEngine

section Marks

variable {f m : String} {ms done : List String}

/-- The markers that a run has noted, each once. -/
def noted (ms : List String) : List String :=
  ms.foldl (fun acc m => if acc.contains m then acc else acc ++ [m]) []

/-- The flags after the markers have been written one after the other. -/
def markedFlags (f : String) (ms : List String) : String :=
  ms.foldl Row.markFlags f

/-- No marker is one of the flags, a marker stored again has no comma, and one
stored for the first time is no field of a marker before it. -/
structure MarkedOnce (f : String) (ms : List String) : Prop where
  fresh : ∀ m ∈ ms, m ∉ fields ',' f
  whole : ∀ done m, done ++ [m] <+: ms → m ∈ done → ',' ∉ m.toList
  apart : ∀ done m, done ++ [m] <+: ms → m ∉ done → ∀ a ∈ done, m ∉ fields ',' a

theorem noted_concat :
    noted (done ++ [m]) =
      if m ∈ noted done then noted done else noted done ++ [m] := by
  simp [noted]

theorem mem_noted_iff :
    m ∈ noted ms ↔ m ∈ ms := by
  induction ms using List.reverseRecOn with
  | nil => rfl
  | append_singleton done a ih =>
      rw [noted_concat]
      split
      · rename_i ha
        simp only [List.mem_append, List.mem_singleton, ih]
        constructor
        · exact Or.inl
        · rintro (h | rfl)
          · exact h
          · exact ih.mp ha
      · simp [ih]

theorem markedFlags_concat :
    markedFlags f (done ++ [m]) = Row.markFlags (markedFlags f done) m := by
  simp [markedFlags]

/-- A marker is found among the flags and the markers before it exactly when it
was stored before. -/
theorem markedOnce_iff :
    MarkedOnce f ms ↔
      ∀ done m, done ++ [m] <+: ms →
        ((m ∈ fields ',' f ∨ ∃ a ∈ done, m ∈ fields ',' a) ↔ m ∈ done) := by
  constructor
  · intro h done m hpre
    constructor
    · intro hfound
      by_contra hnew
      rcases hfound with hf | ⟨a, ha, hma⟩
      · exact h.fresh m (hpre.subset (by simp)) hf
      · exact h.apart done m hpre hnew a ha hma
    · intro hold
      exact Or.inr ⟨m, hold, self_mem_fields_iff.mpr (h.whole done m hpre hold)⟩
  · intro h
    refine ⟨fun m hm hf => ?_, fun done m hpre hold => ?_,
      fun done m hpre hnew a ha hma => ?_⟩
    · obtain ⟨done, rest, rfl, hnew⟩ := List.eq_append_cons_of_mem hm
      exact hnew ((h done m ⟨rest, by simp⟩).mp (Or.inl hf))
    · rcases (h done m hpre).mpr hold with hf | ⟨a, -, hma⟩
      · exact notMem_of_mem_fields hf
      · exact notMem_of_mem_fields hma
    · exact hnew ((h done m hpre).mp (Or.inr ⟨a, ha, hma⟩))

/-- The next marker is appended in both ways, or in neither, when it is found
exactly where it was noted. -/
theorem markedFlags_step
    (hm : m ≠ "")
    (hsame : addFields ',' f (noted done) = markedFlags f done) :
    addFields ',' f (noted (done ++ [m])) = markedFlags f (done ++ [m]) ↔
      ((m ∈ fields ',' f ∨ ∃ a ∈ done, m ∈ fields ',' a) ↔ m ∈ done) := by
  have hfound : m ∈ fields ',' (markedFlags f done) ↔
      m ∈ fields ',' f ∨ ∃ a ∈ done, m ∈ fields ',' a := by
    rw [← hsame, mem_fields_addFields hm]
    simp only [mem_noted_iff]
  have hgrows : addField ',' (markedFlags f done) m ≠ markedFlags f done :=
    addField_ne_self hm
  rw [← hfound, noted_concat, markedFlags_concat, Row.markFlags]
  simp only [mem_noted_iff]
  by_cases hold : m ∈ done <;> by_cases hfields : m ∈ fields ',' (markedFlags f done)
  · simp [hold, hfields, hsame]
  · simp [hold, hfields, hsame, hgrows.symm]
  · simp [hold, hfields, addFields_concat, hsame, hgrows]
  · simp [hold, hfields, addFields_concat, hsame]

/-- Wherever the run ends, the markers it has noted make the flags that the
markers make one after the other. -/
theorem markedOnce_iff_sameFlags
    (hms : ∀ m ∈ ms, m ≠ "") :
    MarkedOnce f ms ↔
      ∀ done, done <+: ms → addFields ',' f (noted done) = markedFlags f done := by
  rw [markedOnce_iff]
  constructor
  · intro h done hpre
    induction done using List.reverseRecOn with
    | nil => rfl
    | append_singleton done m ih =>
        have hbefore : done <+: ms := (List.prefix_append done [m]).trans hpre
        exact (markedFlags_step (hms m (hpre.subset (by simp))) (ih hbefore)).mpr
          (h done m hpre)
  · intro h done m hpre
    have hbefore : done <+: ms := (List.prefix_append done [m]).trans hpre
    exact (markedFlags_step (hms m (hpre.subset (by simp))) (h done hbefore)).mp
      (h _ hpre)

end Marks

/-- The reason that a hold stores in the flags. -/
def PipelineOutcome.holdReason : PipelineOutcome → Option String
  | .audit reason => some reason
  | _ => none

section Runs

variable {s : PipelineState} {row : Row} {x : AudioStore} {m : String}
variable {stores done : List AudioStore} {outcome : PipelineOutcome} {now : Nat}

theorem markersOf_concat :
    markersOf (done ++ [x]) =
      markersOf done ++ if x.audio.isEmpty then [] else [audioMarker x.mime] := by
  cases haudio : x.audio.isEmpty <;> simp [markersOf, haudio]

theorem lastAudio_concat :
    lastAudio (done ++ [x]) = if x.audio.isEmpty then lastAudio done else some x := by
  cases haudio : x.audio.isEmpty <;> simp [lastAudio, haudio]

theorem markersOf_eq_nil_iff :
    markersOf stores = [] ↔ lastAudio stores = none := by
  simp [markersOf, lastAudio]

theorem markersOf_ne_nil
    (h : lastAudio stores = some x) :
    markersOf stores ≠ [] := by
  intro hnil
  rw [markersOf_eq_nil_iff, h] at hnil
  cases hnil

theorem audio_of_lastAudio
    (h : lastAudio stores = some x) :
    x.audio.isEmpty = false := by
  have hmem := List.mem_of_getLast? h
  simpa using (List.mem_filter.mp hmem).2

theorem ne_empty_of_mem_markersOf
    (h : m ∈ markersOf stores) :
    m ≠ "" := by
  obtain ⟨x, -, rfl⟩ := List.mem_map.mp h
  simp [audioMarker]

/-- The markers of a part of a run are the first markers of the run. -/
theorem prefix_markersOf_iff
    {ms : List String} :
    ms <+: markersOf stores ↔ ∃ done, done <+: stores ∧ ms = markersOf done := by
  simp only [markersOf, List.prefix_map_iff, List.prefix_filter_iff]
  constructor
  · rintro ⟨l, ⟨done, hpre, rfl⟩, rfl⟩
    exact ⟨done, hpre, rfl⟩
  · rintro ⟨done, hpre, rfl⟩
    exact ⟨_, ⟨done, hpre, rfl⟩, rfl⟩

/-- What the calls leave in the state: the last audio, and every marker once. -/
theorem afterStores_eq :
    s.afterStores stores =
      { s with
        audio := ((lastAudio stores).map (·.audio)).getD []
        audioType := ((lastAudio stores).map (·.mime)).getD ""
        audioStage := ((lastAudio stores).map (·.stage.audioStage)).getD ""
        audioTypeMarkers := noted (markersOf stores) } := by
  induction stores using List.reverseRecOn with
  | nil => rfl
  | append_singleton done x ih =>
      have hnext : s.afterStores (done ++ [x]) =
          AudioStore.onState (s.afterStores done) x := by
        simp [PipelineState.afterStores]
      rw [hnext, ih, lastAudio_concat, markersOf_concat]
      cases haudio : x.audio.isEmpty with
      | true => simp [AudioStore.onState, PipelineState.storeAudio, haudio]
      | false =>
          simp [AudioStore.onState, PipelineState.storeAudio, haudio, noted_concat,
            AudioStore.mime, audioMarker]

/-- What the calls leave in the row: the last audio, and the flags marked. -/
theorem foldl_onRow_eq :
    stores.foldl AudioStore.onRow row =
      { row with
        dataBlob := ((lastAudio stores).map (·.audio)).or row.dataBlob
        flags :=
          if markersOf stores = [] then row.flags
          else some (markedFlags (row.flags.getD "") (markersOf stores)) } := by
  induction stores using List.reverseRecOn with
  | nil => simp [lastAudio, markersOf]
  | append_singleton done x ih =>
      rw [List.foldl_append, List.foldl_cons, List.foldl_nil, ih, lastAudio_concat,
        markersOf_concat]
      cases haudio : x.audio.isEmpty with
      | true => simp [AudioStore.onRow, haudio]
      | false =>
          by_cases hdone : markersOf done = []
          · simp [AudioStore.onRow, Row.setAudio, haudio, hdone, markedFlags]
          · simp [AudioStore.onRow, Row.setAudio, haudio, hdone, markedFlags_concat]

/-- What the run hands to its terminal write. -/
theorem result_afterStores :
    (s.afterStores stores).result =
      { processedMessage := some s.processedMessage
        preProcessCompletedAt := s.preProcessCompletedAt
        inProcessCompletedAt := s.inProcessCompletedAt
        audio := (lastAudio stores).map fun x => (x.mime, x.audio)
        audioTypeMarkers := noted (markersOf stores) } := by
  rw [afterStores_eq, PipelineState.result]
  cases hlast : lastAudio stores with
  | none => rfl
  | some x => simp [audio_of_lastAudio hlast]

theorem noted_ne_nil
    {ms : List String}
    (hne : ms ≠ []) :
    noted ms ≠ [] := by
  obtain ⟨m, hm⟩ := List.exists_mem_of_ne_nil _ hne
  exact List.ne_nil_of_mem (mem_noted_iff.mpr hm)

theorem storedAudio_afterStores :
    (s.afterStores stores).result.storedAudio =
      (lastAudio stores).map fun x => (x.mime, x.audio) := by
  rw [result_afterStores, PipelineResult.storedAudio]
  cases hlast : lastAudio stores with
  | none => rfl
  | some x =>
      have hmarkers := noted_ne_nil (markersOf_ne_nil hlast)
      simp [audio_of_lastAudio hlast, hmarkers]

/-- The flags that the terminal write makes of the run's markers. -/
theorem appendFlags_noted
    (flags : Option String)
    (hne : markersOf stores ≠ []) :
    appendFlags flags (String.intercalate "," (noted (markersOf stores))) =
      addFields ',' (flags.getD "") (noted (markersOf stores)) := by
  rw [addFields_eq (noted_ne_nil hne) fun m hm =>
    ne_empty_of_mem_markersOf (mem_noted_iff.mp hm)]
  cases flags <;> rfl

/-- What is asked of the flags and the outcome where a run ends. -/
def LandsAlike (row : Row) (ms : List String) : PipelineOutcome → Prop
  | .complete =>
      row.pipelineStatus ≠ .audit ∧
        addFields ',' (row.flags.getD "") (noted ms) =
          markedFlags (row.flags.getD "") ms
  | .audit reason =>
      ms ≠ [] → addFields ',' (row.flags.getD "") (noted ms) = reason
  | _ =>
      addFields ',' (row.flags.getD "") (noted ms) =
        markedFlags (row.flags.getD "") ms

/-- The row that the writes one after the other leave. -/
theorem writeInTurn_eq :
    row.writeInTurn s stores outcome now =
      { row with
        pipelineStatus := outcome.status.getD row.pipelineStatus
        errorMessage := outcome.error.or row.errorMessage
        processedMessage := some s.processedMessage
        preProcessCompletedAt :=
          s.preProcessCompletedAt.or row.preProcessCompletedAt
        inProcessCompletedAt := s.inProcessCompletedAt.or row.inProcessCompletedAt
        postProcessCompletedAt :=
          if outcome = .complete then some now else row.postProcessCompletedAt
        persistedAt := if outcome = .complete then some now else row.persistedAt
        dataBlob := ((lastAudio stores).map (·.audio)).or row.dataBlob
        flags :=
          outcome.holdReason.or
            (if markersOf stores = [] then row.flags
              else some (markedFlags (row.flags.getD "") (markersOf stores))) } := by
  rw [Row.writeInTurn, foldl_onRow_eq]
  cases outcome <;> cases hpre : s.preProcessCompletedAt <;>
    cases hin : s.inProcessCompletedAt <;>
    simp [Row.writeOutcome, Row.writeStages, Row.setProcessedMessage,
      Row.updateStageCompleted, Row.setPipelineStatus, Row.setError, Row.setFlags,
      PipelineOutcome.status, PipelineOutcome.error, PipelineOutcome.holdReason, hpre,
      hin]

/-- The row that the terminal write leaves, where it lands. -/
theorem writeTerminalOutcome_eq
    (hlands : ¬ (outcome = .complete ∧ row.pipelineStatus = .audit)) :
    row.writeTerminalOutcome outcome (s.afterStores stores).result now =
      { row.writeInTurn s stores outcome now with
        flags :=
          if markersOf stores = [] then outcome.holdReason.or row.flags
          else
            some (addFields ',' (row.flags.getD "") (noted (markersOf stores))) } := by
  unfold Row.writeTerminalOutcome
  rw [if_neg hlands, storedAudio_afterStores, result_afterStores, writeInTurn_eq]
  cases hlast : lastAudio stores with
  | none =>
      simp only [markersOf_eq_nil_iff.mpr hlast, if_true]
      cases outcome <;> rfl
  | some x =>
      have hne := markersOf_ne_nil hlast
      simp only [hne, if_false, ← appendFlags_noted row.flags hne]
      cases outcome <;> rfl

/-- The terminal write of a run and its writes one after the other. -/
theorem terminal_eq_inTurn_iff :
    row.writeTerminalOutcome outcome (s.afterStores stores).result now =
        row.writeInTurn s stores outcome now ↔
      LandsAlike row (markersOf stores) outcome := by
  by_cases hlands : outcome = .complete ∧ row.pipelineStatus = .audit
  · obtain ⟨rfl, haudit⟩ := hlands
    have hstatus : (row.writeInTurn s stores .complete now).pipelineStatus =
        .complete := by
      rw [writeInTurn_eq]
      rfl
    simp only [Row.writeTerminalOutcome, haudit, and_self, if_true, LandsAlike, ne_eq,
      not_true, false_and, iff_false]
    intro h
    rw [← h, haudit] at hstatus
    cases hstatus
  · rw [writeTerminalOutcome_eq hlands, writeInTurn_eq]
    by_cases hnil : markersOf stores = []
    · cases outcome <;>
        simp_all [LandsAlike, noted, addFields, markedFlags, PipelineOutcome.holdReason]
    · cases outcome <;> simp_all [LandsAlike, PipelineOutcome.holdReason]

/-- Wherever the run ends, its terminal write leaves the row that its writes one
after the other leave; and the write to a held row changes nothing when it is
repeated. -/
structure WritesAlike (row : Row) (s : PipelineState) (stores : List AudioStore)
    (outcome : PipelineOutcome) (now : Nat) : Prop where
  same : ∀ done, done <+: stores →
    row.writeTerminalOutcome outcome (s.afterStores done).result now =
      row.writeInTurn s done outcome now
  repeated : outcome = .auditHeld → row.pipelineStatus = .audit →
    ∀ done, done <+: stores →
      (row.writeTerminalOutcome .auditHeld (s.afterStores done).result
          now).writeTerminalOutcome .auditHeld (s.afterStores done).result now =
        row.writeTerminalOutcome .auditHeld (s.afterStores done).result now

/-- What is asked of the row, the markers of the run and its outcome. -/
def WritesCleanly (row : Row) (ms : List String) : PipelineOutcome → Prop
  | .complete => row.pipelineStatus ≠ .audit ∧ MarkedOnce (row.flags.getD "") ms
  | .failed _ => MarkedOnce (row.flags.getD "") ms
  | .dropped _ => MarkedOnce (row.flags.getD "") ms
  | .audit reason => ∀ m ∈ ms, reason = addField ',' (row.flags.getD "") m
  | .auditHeld =>
      MarkedOnce (row.flags.getD "") ms ∧ (row.pipelineStatus = .audit → ms = [])

theorem same_iff_landsAlike :
    (∀ done, done <+: stores →
        row.writeTerminalOutcome outcome (s.afterStores done).result now =
          row.writeInTurn s done outcome now) ↔
      ∀ ms, ms <+: markersOf stores → LandsAlike row ms outcome := by
  simp only [terminal_eq_inTurn_iff, prefix_markersOf_iff]
  constructor
  · rintro h _ ⟨done, hpre, rfl⟩
    exact h done hpre
  · intro h done hpre
    exact h _ ⟨done, hpre, rfl⟩

/-- One marker over and over is noted once. -/
theorem noted_eq_singleton
    {done : List String} {a : String}
    (hne : done ≠ [])
    (hall : ∀ m ∈ done, m = a) :
    noted done = [a] := by
  induction done using List.reverseRecOn with
  | nil => exact absurd rfl hne
  | append_singleton done m ih =>
      obtain rfl := hall m (by simp)
      rw [noted_concat]
      cases done with
      | nil => rfl
      | cons b done =>
          rw [ih (by simp) fun x hx => hall x (List.mem_append_left _ hx)]
          simp

/-- A hold whose flags stand for its reason and for the markers of the run. -/
theorem reason_iff
    {f reason : String} {ms : List String}
    (hms : ∀ m ∈ ms, m ≠ "") :
    (∀ done, done <+: ms → done ≠ [] → addFields ',' f (noted done) = reason) ↔
      ∀ m ∈ ms, reason = addField ',' f m := by
  constructor
  · intro h
    suffices hall : ∀ done, done <+: ms → ∀ m ∈ done, reason = addField ',' f m from
      hall ms (List.prefix_rfl)
    intro done hpre
    induction done using List.reverseRecOn with
    | nil => simp
    | append_singleton done m ih =>
        have hbefore : done <+: ms := (List.prefix_append done [m]).trans hpre
        have hreason := h _ hpre (by simp)
        intro x hx
        rcases List.mem_append.mp hx with hx | hx
        · exact ih hbefore x hx
        · obtain rfl := List.mem_singleton.mp hx
          by_cases hold : x ∈ done
          · exact ih hbefore x hold
          · rw [noted_concat, if_neg (mt mem_noted_iff.mp hold),
              addFields_concat] at hreason
            cases done with
            | nil => exact hreason.symm
            | cons a done =>
                rw [h _ hbefore (by simp)] at hreason
                exact absurd hreason (addField_ne_self (hms x (hpre.subset (by simp))))
  · intro h done hpre hne
    obtain ⟨a, ha⟩ := List.exists_mem_of_ne_nil _ hne
    have hall : ∀ m ∈ done, m = a := fun m hm =>
      addField_inj.mp ((h m (hpre.subset hm)).symm.trans (h a (hpre.subset ha)))
    rw [noted_eq_singleton hne hall, h a (hpre.subset ha)]
    rfl

/-- Behind a hold the markers of the run are appended by each of its writes. -/
theorem repeated_iff :
    (∀ done, done <+: stores →
        (row.writeTerminalOutcome .auditHeld (s.afterStores done).result
            now).writeTerminalOutcome .auditHeld (s.afterStores done).result now =
          row.writeTerminalOutcome .auditHeld (s.afterStores done).result now) ↔
      markersOf stores = [] := by
  have hwrite (row : Row) (done : List AudioStore) :
      row.writeTerminalOutcome .auditHeld (s.afterStores done).result now = _ :=
    writeTerminalOutcome_eq (by simp)
  constructor
  · intro h
    by_contra hne
    have hflags := congrArg Row.flags (h stores List.prefix_rfl)
    rw [hwrite, hwrite] at hflags
    simp only [hne, if_false, Option.getD_some, Option.some.injEq] at hflags
    exact addFields_ne_self (noted_ne_nil hne)
      (fun m hm => ne_empty_of_mem_markersOf (mem_noted_iff.mp hm)) hflags
  · intro hnil done hpre
    have hdone : markersOf done = [] := by
      rw [← List.prefix_nil, ← hnil, prefix_markersOf_iff]
      exact ⟨done, hpre, rfl⟩
    have hlast := markersOf_eq_nil_iff.mp hdone
    rw [hwrite, hwrite]
    simp only [writeInTurn_eq, hdone, hlast, if_true]
    cases s.preProcessCompletedAt <;> cases s.inProcessCompletedAt <;>
      simp [PipelineOutcome.status, PipelineOutcome.error, PipelineOutcome.holdReason]

/-- **Main theorem.**  When the terminal write stands for the writes of the run. -/
theorem writesAlike_iff
    (row : Row) (s : PipelineState) (stores : List AudioStore)
    (outcome : PipelineOutcome) (now : Nat) :
    WritesAlike row s stores outcome now ↔
      WritesCleanly row (markersOf stores) outcome := by
  have hsplit : WritesAlike row s stores outcome now ↔ _ ∧ _ :=
    ⟨fun h => ⟨h.same, h.repeated⟩, fun h => ⟨h.1, h.2⟩⟩
  have hmarked : MarkedOnce (row.flags.getD "") (markersOf stores) ↔ _ :=
    markedOnce_iff_sameFlags fun _ => ne_empty_of_mem_markersOf
  rw [hsplit, same_iff_landsAlike]
  cases outcome with
  | complete =>
      simp only [WritesCleanly, LandsAlike, hmarked, reduceCtorEq, false_imp_iff,
        and_true]
      exact ⟨fun h => ⟨(h [] List.nil_prefix).1, fun ms hpre => (h ms hpre).2⟩,
        fun h ms hpre => ⟨h.1, h.2 ms hpre⟩⟩
  | failed error => simp [WritesCleanly, LandsAlike, hmarked]
  | dropped reason => simp [WritesCleanly, LandsAlike, hmarked]
  | audit reason =>
      simp only [WritesCleanly, LandsAlike, reduceCtorEq, false_imp_iff, and_true]
      exact reason_iff fun _ => ne_empty_of_mem_markersOf
  | auditHeld =>
      simp only [WritesCleanly, LandsAlike, hmarked, repeated_iff, true_imp_iff]

/-- A row that has kept the audio of an earlier run, and a run that renders audio of
the same type. -/
theorem marker_appended_again :
    ¬ ∀ (row : Row) (s : PipelineState) (stores : List AudioStore)
        (outcome : PipelineOutcome) (now : Nat),
      WritesAlike row s stores outcome now := by
  intro h
  have hsame := (h
    { eventType := 1
      platform := "twitch"
      rawMessage := "hi"
      command := ""
      flags := some "\x7b\x7d,audio_type=audio/mpeg" }
    (.ofMessage { uuid7 := "m", rawMessage := "hi" })
    [⟨.preProcess, "audio/mpeg", [1]⟩] .complete 5).same _ List.prefix_rfl
  exact absurd (congrArg Row.flags hsame) (by decide)

end Runs

end CockatielEngine
