import CockatielEngine.Pipeline.AckTracker

/-!
# Pipeline: the signal that a stage has drained

An ack and a sweep both answer, under the lock that removed the entries, whether
the message still has one.  Whoever is told that it has none advances the
message to its next stage.

**Main result.**  Whatever calls remove a message's entries, exactly one of
them answers that nothing is left.  It is the call that removed the last entry,
and entries of other messages do not bear on any of the answers.
-/

namespace CockatielEngine

section LastTime

variable {p : Nat → Prop} {n : Nat}

/-- A property that is lost for good is lost exactly once. -/
theorem existsUnique_lost
    (hfirst : p 0)
    (hlast : ¬ p n)
    (hgone : ∀ i < n, ¬ p i → ¬ p (i + 1)) :
    ∃! i, i < n ∧ p i ∧ ¬ p (i + 1) := by
  induction n with
  | zero => exact absurd hfirst hlast
  | succ n ih =>
      by_cases hn : p n
      · refine ⟨n, ⟨Nat.lt_succ_self n, hn, hlast⟩, ?_⟩
        rintro i ⟨hi, hpi, hlost⟩
        by_contra hne
        have hfrom : ∀ j, i < j → j ≤ n → ¬ p j := by
          intro j hij
          induction j, hij using Nat.le_induction with
          | base => exact fun _ => hlost
          | succ j _ ihj => exact fun hj => hgone j (by omega) (ihj (by omega))
        exact hfrom n (by omega) le_rfl hn
      · obtain ⟨i, ⟨hi, hpi, hlost⟩, hunique⟩ :=
          ih hn fun i hi => hgone i (by omega)
        refine ⟨i, ⟨by omega, hpi, hlost⟩, ?_⟩
        rintro j ⟨hj, hpj, hlostj⟩
        refine hunique j ⟨?_, hpj, hlostj⟩
        by_contra hge
        obtain rfl : j = n := by omega
        exact hn hpj

end LastTime

section Defs

/-- A call that removes entries, at the time it is made. -/
inductive AckCall where
  | ackModule (now : Nat) (uuid7 moduleName : String)
  | checkTimeouts (now : Nat)

/-- The answer of a call. -/
inductive AckAnswer where
  | acked (answer : Option (Stage × Nat × Bool))
  | swept (timedOut : List (PendingAck × Bool))
deriving DecidableEq

namespace AckTracker

/-- Make one call under the tracker's lock. -/
def call (t : AckTracker) : AckCall → AckAnswer × AckTracker
  | .ackModule now uuid7 moduleName =>
      let r := t.ackModule now uuid7 moduleName
      (.acked r.1, r.2)
  | .checkTimeouts now =>
      let r := t.checkTimeouts now
      (.swept r.1, r.2)

/-- The table after the calls, in their order. -/
def calls (t : AckTracker) (cs : List AckCall) : AckTracker :=
  cs.foldl (fun t c => (t.call c).2) t

/-- What the answer of a call says about the message. -/
def about (uuid7 : String) : AckCall → AckAnswer → AckAnswer
  | .ackModule _ acked _, .acked answer =>
      .acked (if acked = uuid7 then answer else none)
  | _, .swept timedOut => .swept (timedOut.filter fun r => r.1.uuid7 = uuid7)
  | _, answer => answer

/-- Nothing of the message is pending any more: an ack that nothing is still
pending, or timed out entries that all say so. -/
def SaysDrained : AckAnswer → Prop
  | .acked answer => ∃ stage elapsed, answer = some (stage, elapsed, false)
  | .swept timedOut => timedOut ≠ [] ∧ ∀ r ∈ timedOut, r.2 = false

/-- The call answers that nothing of the message is pending any more. -/
def ReportsDrained (t : AckTracker) (uuid7 : String) (c : AckCall) : Prop :=
  SaysDrained (about uuid7 c (t.call c).1)

end AckTracker

/-- The entries a call takes out of the table. -/
def AckCall.removes : AckCall → PendingAck → Bool
  | .ackModule _ uuid7 moduleName => PendingAck.isFor uuid7 moduleName
  | .checkTimeouts now => PendingAck.expired now

end Defs

namespace AckTracker

section Steps

variable {t t' : AckTracker} {uuid7 : String}

/-- A call removes its entries and leaves the others in their order. -/
theorem pending_call
    (t : AckTracker) (c : AckCall) :
    (t.call c).2.pending = t.pending.filter fun e => !c.removes e := by
  cases c with
  | checkTimeouts now => rfl
  | ackModule now uuid7 moduleName =>
      rcases t.ackModule_cases now uuid7 moduleName with
        ⟨heq, hnone⟩ | ⟨entry, -, rest, -, -, hrest, heq⟩
      · refine Eq.trans (by simp [call, heq]) (List.filter_eq_self.mpr ?_).symm
        exact fun e he => by simpa [AckCall.removes] using hnone e he
      · simpa [call, heq, AckCall.removes] using hrest

/-- What a call leaves of a message depends on the message's entries alone. -/
theorem entries_call
    (t : AckTracker) (uuid7 : String) (c : AckCall) :
    (t.call c).2.entries uuid7 =
      (t.entries uuid7).filter fun e => !c.removes e := by
  simp only [entries, pending_call, List.filter_filter, Bool.and_comm]

theorem hasPending_iff_entries :
    t.hasPending uuid7 = true ↔ t.entries uuid7 ≠ [] := by
  simp [hasPending_iff, entries, List.filter_eq_nil_iff]

theorem hasPending_congr
    (h : t'.entries uuid7 = t.entries uuid7) :
    t'.hasPending uuid7 = t.hasPending uuid7 := by
  rw [Bool.eq_iff_iff, hasPending_iff_entries, hasPending_iff_entries, h]

/-- No call brings an entry back. -/
theorem hasPending_of_call
    {c : AckCall}
    (h : (t.call c).2.hasPending uuid7 = true) :
    t.hasPending uuid7 = true := by
  rw [hasPending_iff_entries, entries_call] at h
  rw [hasPending_iff_entries]
  rintro hnil
  simp [hnil] at h

/-- An ack answers for an entry of the message. -/
theorem ackModule_fst
    (t : AckTracker) (now : Nat) (uuid7 moduleName : String) :
    (t.ackModule now uuid7 moduleName).1 =
      ((t.entries uuid7).find? (PendingAck.isFor uuid7 moduleName)).map
        fun entry => (entry.stage, now - entry.sentAt,
          (t.ackModule now uuid7 moduleName).2.hasPending uuid7) := by
  have hfind : t.pending.find? (PendingAck.isFor uuid7 moduleName) =
      (t.entries uuid7).find? (PendingAck.isFor uuid7 moduleName) := by
    rw [entries, List.find?_filter]
    congr 1
    funext e
    by_cases he : e.uuid7 = uuid7 <;> simp [PendingAck.isFor, he]
  simp only [ackModule, ← hfind]
  cases t.pending.find? (PendingAck.isFor uuid7 moduleName) <;> rfl

/-- A sweep answers for the expired entries of the message. -/
theorem checkTimeouts_fst
    (t : AckTracker) (now : Nat) (uuid7 : String) :
    (t.checkTimeouts now).1.filter (fun r => r.1.uuid7 = uuid7) =
      ((t.entries uuid7).filter (PendingAck.expired now)).map
        fun e => (e, (t.checkTimeouts now).2.hasPending uuid7) := by
  have hcomm : (t.pending.filter (PendingAck.expired now)).filter
        (fun e => e.uuid7 = uuid7) =
      (t.entries uuid7).filter (PendingAck.expired now) := by
    simp only [entries, List.filter_filter, Bool.and_comm]
  rw [← hcomm, checkTimeouts, List.filter_map]
  refine List.map_congr_left fun e he => ?_
  have hown : e.uuid7 = uuid7 := by simpa using (List.mem_filter.mp he).2
  rw [hown]

/-- What a call answers about a message depends on the message's entries
alone. -/
theorem about_call_congr
    (h : t'.entries uuid7 = t.entries uuid7)
    (c : AckCall) :
    about uuid7 c (t'.call c).1 = about uuid7 c (t.call c).1 := by
  have hrest : (t'.call c).2.hasPending uuid7 = (t.call c).2.hasPending uuid7 :=
    hasPending_congr (by rw [entries_call, entries_call, h])
  cases c with
  | ackModule now acked moduleName =>
      by_cases hacked : acked = uuid7
      · subst hacked
        simp only [call, about, if_true] at hrest ⊢
        rw [ackModule_fst, ackModule_fst t, h, hrest]
      · simp [about, call, hacked]
  | checkTimeouts now =>
      simp only [call, about] at hrest ⊢
      rw [checkTimeouts_fst, checkTimeouts_fst t, h, hrest]

/-- A call that takes the message's last entry takes one it removes. -/
theorem exists_removed
    {c : AckCall}
    (hbefore : t.hasPending uuid7 = true)
    (hafter : (t.call c).2.hasPending uuid7 = false) :
    ∃ e ∈ t.entries uuid7, c.removes e = true := by
  obtain ⟨e, he⟩ := List.exists_mem_of_ne_nil _ (hasPending_iff_entries.mp hbefore)
  refine ⟨e, he, ?_⟩
  by_contra hstays
  have hkept : e ∈ (t.call c).2.entries uuid7 := by
    rw [entries_call]
    exact List.mem_filter.mpr ⟨he, by simpa using hstays⟩
  have hpending := hasPending_iff_entries.mpr (List.ne_nil_of_mem hkept)
  simp [hafter] at hpending

/-- A call answers that the message has drained exactly when it removed the
last of its entries. -/
theorem reportsDrained_iff
    (t : AckTracker) (uuid7 : String) (c : AckCall) :
    t.ReportsDrained uuid7 c ↔
      t.hasPending uuid7 = true ∧ (t.call c).2.hasPending uuid7 = false := by
  constructor
  · intro h
    cases c with
    | ackModule now acked moduleName =>
        obtain ⟨stage, elapsed, hanswer⟩ := h
        split at hanswer
        · rename_i hacked
          subst hacked
          rw [ackModule_fst] at hanswer
          obtain ⟨entry, hfound, heq⟩ := Option.map_eq_some_iff.mp hanswer
          simp only [Prod.mk.injEq] at heq
          exact ⟨hasPending_iff_entries.mpr
            (List.ne_nil_of_mem (List.mem_of_find?_eq_some hfound)), heq.2.2⟩
        · cases hanswer
    | checkTimeouts now =>
        obtain ⟨hsome, hall⟩ := h
        simp only [checkTimeouts_fst] at hsome hall
        obtain ⟨r, hr⟩ := List.exists_mem_of_ne_nil _ hsome
        have hfalse := hall r hr
        obtain ⟨e, he, rfl⟩ := List.mem_map.mp hr
        exact ⟨hasPending_iff_entries.mpr
          (List.ne_nil_of_mem (List.mem_of_mem_filter he)), hfalse⟩
  · rintro ⟨hbefore, hafter⟩
    obtain ⟨e, he, hremoves⟩ := exists_removed hbefore hafter
    cases c with
    | ackModule now acked moduleName =>
        have huuid : e.uuid7 = uuid7 := by simpa [entries] using (List.mem_filter.mp he).2
        obtain ⟨hacked, -⟩ : e.uuid7 = acked ∧ e.moduleName = moduleName := by
          simpa [AckCall.removes, PendingAck.isFor] using hremoves
        obtain rfl : acked = uuid7 := hacked.symm.trans huuid
        obtain ⟨entry, hfound⟩ := Option.isSome_iff_exists.mp
          (List.find?_isSome.mpr ⟨e, he, hremoves⟩)
        refine ⟨entry.stage, now - entry.sentAt, ?_⟩
        simp only [call] at hafter ⊢
        rw [if_pos trivial, ackModule_fst, hafter]
        exact Option.map_eq_some_iff.mpr ⟨entry, hfound, rfl⟩
    | checkTimeouts now =>
        simp only [call] at hafter
        simp only [ReportsDrained, SaysDrained, about, call, checkTimeouts_fst, hafter]
        refine ⟨List.ne_nil_of_mem
          (List.mem_map.mpr ⟨e, List.mem_filter.mpr ⟨he, hremoves⟩, rfl⟩), ?_⟩
        rintro r hr
        obtain ⟨e, -, rfl⟩ := List.mem_map.mp hr
        rfl

/-- The message's entries after a call depend on those before it alone. -/
theorem entries_calls_congr
    (h : t'.entries uuid7 = t.entries uuid7)
    (cs : List AckCall) :
    (t'.calls cs).entries uuid7 = (t.calls cs).entries uuid7 := by
  induction cs generalizing t t' with
  | nil => exact h
  | cons c cs ih =>
      exact ih (by rw [entries_call, entries_call, h])

theorem calls_take_succ
    {cs : List AckCall} {i : Nat} {c : AckCall}
    (t : AckTracker)
    (hc : cs[i]? = some c) :
    t.calls (cs.take (i + 1)) = ((t.calls (cs.take i)).call c).2 := by
  simp [calls, List.take_add_one, hc]

end Steps

/-- **Main theorem.**  When a list of calls removes all entries of a message,
exactly one of the calls reports that the message has drained.  A call reports
it exactly when it removed the last entry, and the entries of other messages
change no answer about this one. -/
theorem drained_reported_once
    (t : AckTracker) (uuid7 : String) (cs : List AckCall)
    (htracked : t.hasPending uuid7 = true)
    (hdrained : (t.calls cs).hasPending uuid7 = false) :
    (∃! i, ∃ c, cs[i]? = some c ∧ (t.calls (cs.take i)).ReportsDrained uuid7 c) ∧
    (∀ i c, cs[i]? = some c →
      ((t.calls (cs.take i)).ReportsDrained uuid7 c ↔
        (t.calls (cs.take i)).hasPending uuid7 = true ∧
          (t.calls (cs.take (i + 1))).hasPending uuid7 = false)) ∧
    ∀ t' : AckTracker, t'.entries uuid7 = t.entries uuid7 →
      ∀ i c, cs[i]? = some c →
        about uuid7 c ((t'.calls (cs.take i)).call c).1 =
          about uuid7 c ((t.calls (cs.take i)).call c).1 := by
  have hreports (i : Nat) (c : AckCall) (hc : cs[i]? = some c) :
      (t.calls (cs.take i)).ReportsDrained uuid7 c ↔
        (t.calls (cs.take i)).hasPending uuid7 = true ∧
          (t.calls (cs.take (i + 1))).hasPending uuid7 = false := by
    rw [reportsDrained_iff, calls_take_succ t hc]
  refine ⟨?_, hreports, fun t' h i c _ =>
    about_call_congr (entries_calls_congr h _) c⟩
  obtain ⟨i, ⟨hi, hbefore, hafter⟩, hunique⟩ :=
    existsUnique_lost (n := cs.length)
      (p := fun i => (t.calls (cs.take i)).hasPending uuid7 = true)
      (by simpa [calls] using htracked) (by simpa using hdrained) (by
        intro i hi hgone hback
        rw [calls_take_succ t (List.getElem?_eq_getElem hi)] at hback
        exact hgone (hasPending_of_call hback))
  refine ⟨i, ⟨cs[i], List.getElem?_eq_getElem hi, ?_⟩, ?_⟩
  · exact (hreports i _ (List.getElem?_eq_getElem hi)).mpr
      ⟨hbefore, by simpa using hafter⟩
  · rintro j ⟨c, hc, hj⟩
    obtain ⟨hbefore, hafter⟩ := (hreports j c hc).mp hj
    exact hunique j ⟨(List.getElem?_eq_some_iff.mp hc).1, hbefore, by simp [hafter]⟩

/-- Module `a` acks, the entry of module `b` times out. -/
def ackThenSweep : List AckCall :=
  [.ackModule 5 "u" "a", .ackModule 6 "v" "b", .checkTimeouts 9]

/-- Two modules owe an answer for one message, one for another. -/
def twoModules : AckTracker :=
  ((AckTracker.new.track 0 "u" .preProcess "a" 7).track 0 "u" .preProcess "b" 7).track
    0 "v" .preProcess "b" 7

theorem drained_reported_once_twoModules :
    ∃! i, ∃ c, ackThenSweep[i]? = some c ∧
      (twoModules.calls (ackThenSweep.take i)).ReportsDrained "u" c :=
  (drained_reported_once twoModules "u" ackThenSweep (by decide) (by decide)).1

end AckTracker
end CockatielEngine
