import CockatielEngine.Database.QueryTimeline
import CockatielEngine.Orders.Ranked

/-!
# Database: culling the noise of the timeline

Rows of the lifecycle of modules are noise, and only the newest of them are kept.  The
key of the oldest row to keep is looked up by an offset, and the noise rows with
smaller keys are deleted by another statement, which has the key as a literal.

**Main result.**  In a table whose keys are bytes, exactly the noise rows older than
the last one to keep are deleted, and their number is returned.
-/

namespace CockatielEngine

section Statements

variable (fold : Char → Char)

/-- `x < y`, which is not true of a `NULL`. -/
def SqlValue.lt (x y : SqlValue) : Bool :=
  decide (x ≠ .null) && decide (y ≠ .null) && !y.le x

/-- The condition `noise`. -/
def isNoise (row : TimelineRow) : Bool :=
  decide (row.eventType = 5) && decide (row.command = some "module_lifecycle") &&
    (likeColumn fold "%\"kind\":\"module_log\"%".toList row.flags ||
      likeColumn fold "%\"kind\":\"module_connect\"%".toList row.flags ||
      likeColumn fold "%\"kind\":\"module_disconnect\"%".toList row.flags)

def noiseRows (t : TimelineTable) : List TimelineRow :=
  t.rows.filter (isNoise fold)

/-- `count_noise`. -/
def countNoise (t : TimelineTable) : Nat :=
  (noiseRows fold t).length

/-- `DELETE FROM timeline_events WHERE …`. -/
def TimelineTable.deleteWhere (t : TimelineTable) (p : TimelineRow → Bool) :
    TimelineTable where
  rows := t.rows.filter fun row => !p row
  unique := t.unique.sublist ((List.filter_sublist.map _).filter _)

/-- `ORDER BY uuid7 DESC`. -/
def greatestKeyFirst (r r' : TimelineRow) : Prop :=
  r'.uuid7.le r.uuid7 = true

instance : DecidableRel greatestKeyFirst :=
  fun r r' => inferInstanceAs (Decidable (r'.uuid7.le r.uuid7 = true))

/-- `SELECT uuid7 … ORDER BY uuid7 DESC LIMIT 1 OFFSET offset`, the first row of it. -/
def selectKey (t : TimelineTable) (offset : Nat) : Option SqlValue :=
  (((((noiseRows fold t).insertionSort greatestKeyFirst).drop offset).take 1).map
    (·.uuid7)).head?

/-- The bytes of a key that was read. -/
def keyBytes : SqlValue → Option Bytes
  | .blob b => some b
  | .text s => some (uuid7StringToBytes s)
  | _ => none

/-- `{:02X}` of every byte. -/
def hexUpper (bytes : Bytes) : List Char :=
  (hex bytes).map Char.toUpper

/-- The value of `X'…'`; digits that cannot be read are an error of the database. -/
def blobLiteral (digits : List Char) : Except String SqlValue :=
  match readHex digits with
  | some bytes => .ok (.blob bytes)
  | none => .error "unrecognized token"

/-- `cull_timeline_noise`: the number of rows deleted, and the table afterwards.  The
`VACUUM` at the end changes no row. -/
def cullTimelineNoise (conn : Option TimelineTable) (keep : Nat) :
    Except String (Nat × TimelineTable) :=
  match conn with
  | none => .error "Local database not initialized"
  | some t =>
      if keep = 0 then .ok (countNoise fold t, t.deleteWhere (isNoise fold))
      else
        match (selectKey fold t (keep - 1)).bind keyBytes with
        | none => .ok (0, t)
        | some c =>
            (blobLiteral (hexUpper c)).map fun cutoff =>
              let t' := t.deleteWhere fun row => isNoise fold row && row.uuid7.lt cutoff
              (countNoise fold t - countNoise fold t', t')

end Statements

section Meaning

variable (fold : Char → Char)

/-- The keys are stored as bytes. -/
def TimelineTable.BlobKeyed (t : TimelineTable) : Prop :=
  ∀ row ∈ t.rows, ∃ b, row.uuid7 = .blob b

/-- The row has the greater key. -/
def newer (r r' : TimelineRow) : Bool :=
  r'.uuid7.lt r.uuid7

/-- The keep-th newest noise row: all but one of so many are newer. -/
def KthNewest (t : TimelineTable) (keep : Nat) (c : TimelineRow) : Prop :=
  ∃ n, keep = n + 1 ∧ Ranked newer (noiseRows fold t) n c

/-- A noise row that is not to be kept. -/
def Culled (t : TimelineTable) (keep : Nat) (row : TimelineRow) : Prop :=
  isNoise fold row = true ∧
    (keep = 0 ∨ ∃ c, KthNewest fold t keep c ∧ row.uuid7.lt c.uuid7 = true)

/-- Exactly the rows that are not to be kept are gone, as many as were counted. -/
structure CullsNoise (t : TimelineTable) (keep deleted : Nat) (t' : TimelineTable) :
    Prop where
  kept : t'.rows.Sublist t.rows
  culled : ∀ row ∈ t.rows, row ∉ t'.rows ↔ Culled fold t keep row
  counted : deleted + t'.rows.length = t.rows.length
  cutoff : (∃ c, KthNewest fold t keep c) ↔ 0 < keep ∧ keep ≤ countNoise fold t
  few : countNoise fold t < keep → t'.rows = t.rows

end Meaning

section Markers

variable {fold : Char → Char} {row : TimelineRow} {flags marker : String}

/-- A column is like every text that it contains, between wildcards. -/
theorem likeColumn_of_infix
    (h : marker.toList <:+: flags.toList) :
    likeColumn fold ('%' :: (marker.toList ++ ['%'])) (some flags) = true := by
  obtain ⟨before, after, heq⟩ := h
  have hrest : (sqlLike fold).like (marker.toList ++ ['%']) (marker.toList ++ after) =
      true :=
    LikeRules.like_append LikeRules.like_self LikeRules.like_many_singleton
  have hsuffix : marker.toList ++ after <:+ flags.toList :=
    ⟨before, by rw [← heq, List.append_assoc]⟩
  exact LikeRules.like_many_cons_iff.mpr ⟨_, hsuffix, hrest⟩

/-- A lifecycle row with the marker of a log, a connect or a disconnect is noise. -/
theorem isNoise_of_marker
    (hevent : row.eventType = 5)
    (hcommand : row.command = some "module_lifecycle")
    (hflags : row.flags = some flags)
    (hmarker : marker ∈ ["\"kind\":\"module_log\"", "\"kind\":\"module_connect\"",
      "\"kind\":\"module_disconnect\""])
    (h : marker.toList <:+: flags.toList) :
    isNoise fold row = true := by
  have hlike : likeColumn fold ('%' :: (marker.toList ++ ['%'])) (some flags) = true :=
    likeColumn_of_infix h
  have hlog : '%' :: ("\"kind\":\"module_log\"".toList ++ ['%']) =
      "%\"kind\":\"module_log\"%".toList := by decide
  have hconnect : '%' :: ("\"kind\":\"module_connect\"".toList ++ ['%']) =
      "%\"kind\":\"module_connect\"%".toList := by decide
  have hdisconnect : '%' :: ("\"kind\":\"module_disconnect\"".toList ++ ['%']) =
      "%\"kind\":\"module_disconnect\"%".toList := by decide
  simp only [List.mem_cons, List.not_mem_nil, or_false] at hmarker
  rw [isNoise, hevent, hcommand, hflags, ← hlog, ← hconnect, ← hdisconnect]
  rcases hmarker with rfl | rfl | rfl
  · simp only [hlike, decide_true, Bool.true_and, Bool.true_or]
  · simp only [hlike, decide_true, Bool.true_and, Bool.true_or, Bool.or_true]
  · simp only [hlike, decide_true, Bool.true_and, Bool.or_true]

end Markers

section Keys

variable {x y z : SqlValue} {b c : Bytes}

theorem SqlValue.le_total (x y : SqlValue) : x.le y = true ∨ y.le x = true := by
  cases x <;> cases y <;> simp [SqlValue.le, SqlValue.rank, List.le_total, Int.le_total]

theorem SqlValue.le_trans
    (h : x.le y = true)
    (h' : y.le z = true) :
    x.le z = true := by
  cases x <;> cases y <;> cases z <;> simp_all [SqlValue.le, SqlValue.rank]
  · omega
  · exact List.le_trans h h'
  · exact List.le_trans h h'

theorem SqlValue.lt_asymm
    (h : x.lt y = true) :
    y.lt x = false := by
  simp only [SqlValue.lt, Bool.and_eq_true, Bool.not_eq_true'] at h
  have hle := (SqlValue.le_total x y).resolve_right (by simp [h.2])
  simp [SqlValue.lt, hle]

/-- Different bytes are ordered one way or the other. -/
theorem lt_blob_of_le
    (hle : (SqlValue.blob b).le (.blob c) = true)
    (hne : SqlValue.blob b ≠ .blob c) :
    (SqlValue.blob b).lt (.blob c) = true := by
  have hback : (SqlValue.blob c).le (.blob b) = false := by
    by_contra hback
    have hcb : c ≤ b := of_decide_eq_true (Bool.eq_true_of_not_eq_false hback)
    exact hne (congrArg SqlValue.blob (List.le_antisymm (of_decide_eq_true hle) hcb))
  simp [SqlValue.lt, hback]

/-- The literal of a key's bytes has the value of the key. -/
theorem blobLiteral_hexUpper (b : Bytes) : blobLiteral (hexUpper b) = .ok (.blob b) := by
  have hdigit : ∀ n : Fin 16, hexValue (Nat.digitChar n).toUpper = some n.1 := by decide
  have hread : readHex (hexUpper b) = some b := by
    induction b with
    | nil => rfl
    | cons b bytes ih =>
        have hbyte : UInt8.ofNat (16 * (b.toNat / 16) + b.toNat % 16) = b := by
          rw [Nat.div_add_mod, UInt8.ofNat_toNat]
        have hhigh := hdigit ⟨_, high_lt b⟩
        have hlow := hdigit ⟨_, low_lt b⟩
        change readHex ((Nat.digitChar (b.toNat / 16)).toUpper ::
          (Nat.digitChar (b.toNat % 16)).toUpper :: hexUpper bytes) = _
        simp only [readHex, hhigh, hlow, ih, hbyte]
  rw [blobLiteral, hread]

end Keys

section Deleting

variable {fold : Char → Char} {t : TimelineTable} {p : TimelineRow → Bool}
variable {row : TimelineRow}

theorem notMem_deleteWhere_iff
    (hrow : row ∈ t.rows) :
    row ∉ (t.deleteWhere p).rows ↔ p row = true := by
  simp [TimelineTable.deleteWhere, hrow]

theorem length_deleteWhere (t : TimelineTable) (p : TimelineRow → Bool) :
    t.rows.countP p + (t.deleteWhere p).rows.length = t.rows.length := by
  rw [TimelineTable.deleteWhere, ← List.countP_eq_length_filter,
    List.length_eq_countP_add_countP p]
  simp

/-- A delete of noise rows takes its rows off their number. -/
theorem countNoise_deleteWhere
    (hp : ∀ row, p row = true → isNoise fold row = true) :
    countNoise fold t = t.rows.countP p + countNoise fold (t.deleteWhere p) := by
  have hsame : (t.rows.filter p).countP (isNoise fold) = t.rows.countP p := by
    rw [List.countP_filter]
    refine List.countP_congr fun row _ => ?_
    simpa using hp row
  rw [countNoise, countNoise, noiseRows, noiseRows, ← List.countP_eq_length_filter,
    ← List.countP_eq_length_filter, List.countP_eq_countP_filter_add _ _ p, hsame]
  rfl

end Deleting

section Cutoff

variable {fold : Char → Char} {t : TimelineTable} {row c : TimelineRow} {k : SqlValue}
variable {n keep : Nat}

theorem nodup_keys
    (h : t.BlobKeyed) :
    (t.rows.map (·.uuid7)).Nodup := by
  have hall : (t.rows.map (·.uuid7)).filter (· ≠ .null) = t.rows.map (·.uuid7) := by
    refine List.filter_eq_self.mpr fun key hkey => ?_
    obtain ⟨row, hrow, rfl⟩ := List.mem_map.mp hkey
    obtain ⟨b, hb⟩ := h row hrow
    simp [hb]
  rw [← hall]
  exact t.unique

/-- The rows the lookup sorts are sorted strictly. -/
theorem pairwise_newer
    (h : t.BlobKeyed) :
    ((noiseRows fold t).insertionSort greatestKeyFirst).Pairwise fun r r' =>
      newer r r' = true := by
  have : Std.Total greatestKeyFirst := ⟨fun r r' => SqlValue.le_total r'.uuid7 r.uuid7⟩
  have : IsTrans TimelineRow greatestKeyFirst :=
    ⟨fun _ _ _ h h' => SqlValue.le_trans h' h⟩
  have hperm := List.perm_insertionSort greatestKeyFirst (noiseRows fold t)
  have hkeys : ((noiseRows fold t).map (·.uuid7)).Nodup :=
    (nodup_keys h).sublist (List.filter_sublist.map _)
  have hne := List.pairwise_map.mp ((hperm.map (·.uuid7)).nodup_iff.mpr hkeys)
  refine ((List.pairwise_insertionSort greatestKeyFirst _).and hne).imp_of_mem ?_
  rintro r r' hr hr' ⟨hle, hne⟩
  obtain ⟨b, hb⟩ := h r (List.mem_of_mem_filter (hperm.mem_iff.mp hr))
  obtain ⟨b', hb'⟩ := h r' (List.mem_of_mem_filter (hperm.mem_iff.mp hr'))
  rw [greatestKeyFirst, hb, hb'] at hle
  rw [hb, hb'] at hne
  rw [newer, hb, hb']
  exact lt_blob_of_le hle hne.symm

/-- The key that is looked up is that of the row of the rank of the offset. -/
theorem selectKey_eq
    (fold : Char → Char) (t : TimelineTable) (n : Nat) :
    selectKey fold t n =
      ((noiseRows fold t).insertionSort greatestKeyFirst)[n]?.map (·.uuid7) := by
  rw [selectKey, List.head?_map, List.head?_take, if_neg one_ne_zero, List.head?_drop]

theorem getElem?_sorted_iff
    (h : t.BlobKeyed) :
    ((noiseRows fold t).insertionSort greatestKeyFirst)[n]? = some c ↔
      KthNewest fold t (n + 1) c := by
  rw [getElem?_eq_some_iff_ranked (fun _ _ => SqlValue.lt_asymm) (pairwise_newer h)]
  have hperm := List.perm_insertionSort greatestKeyFirst (noiseRows fold t)
  constructor
  · intro hranked
    exact ⟨n, rfl, hranked.perm hperm⟩
  · rintro ⟨n', heq, hranked⟩
    obtain rfl := Nat.succ_injective heq
    exact hranked.perm hperm.symm

/-- There is a keep-th newest noise row where there are as many. -/
theorem exists_kthNewest_iff
    (h : t.BlobKeyed) :
    (∃ c, KthNewest fold t keep c) ↔ 0 < keep ∧ keep ≤ countNoise fold t := by
  cases keep with
  | zero => simp [KthNewest]
  | succ n =>
      have hlookup : (∃ c, KthNewest fold t (n + 1) c) ↔
          n < ((noiseRows fold t).insertionSort greatestKeyFirst).length := by
        simp only [← getElem?_sorted_iff h, List.getElem?_eq_some_iff]
        exact ⟨fun ⟨_, hn, _⟩ => hn, fun hn => ⟨_, hn, rfl⟩⟩
      rw [hlookup, List.length_insertionSort, countNoise]
      omega

end Cutoff

section Culling

variable {fold : Char → Char} {t : TimelineTable} {p : TimelineRow → Bool}
variable {keep : Nat}

/-- A delete of the rows that are not to be kept, counted before and after. -/
theorem cullsNoise_deleteWhere
    (h : t.BlobKeyed)
    (hp : ∀ row ∈ t.rows, p row = true ↔ Culled fold t keep row)
    (hfew : countNoise fold t < keep → (t.deleteWhere p).rows = t.rows) :
    CullsNoise fold t keep (t.rows.countP p) (t.deleteWhere p) where
  kept := List.filter_sublist
  culled row hrow := (notMem_deleteWhere_iff hrow).trans (hp row hrow)
  counted := length_deleteWhere t p
  cutoff := exists_kthNewest_iff h
  few := hfew

/-- With nothing to keep all noise rows are deleted. -/
theorem cull_zero
    (h : t.BlobKeyed) :
    CullsNoise fold t 0 (countNoise fold t) (t.deleteWhere (isNoise fold)) := by
  have hspec : CullsNoise fold t 0 (t.rows.countP (isNoise fold))
      (t.deleteWhere (isNoise fold)) :=
    cullsNoise_deleteWhere h (fun row _ => by simp [Culled])
      fun hfew => absurd hfew (Nat.not_lt_zero _)
  rwa [List.countP_eq_length_filter] at hspec

/-- Without a cutoff there are too few noise rows. -/
theorem cull_few
    (h : t.BlobKeyed)
    (hfew : ¬ ∃ c, KthNewest fold t (keep + 1) c) :
    CullsNoise fold t (keep + 1) 0 t where
  kept := List.Sublist.refl _
  culled row hrow := by
    refine iff_of_false (not_not_intro hrow) ?_
    rintro ⟨-, hzero | ⟨c, hc, -⟩⟩
    · cases hzero
    · exact hfew ⟨c, hc⟩
  counted := Nat.zero_add _
  cutoff := exists_kthNewest_iff h
  few _ := rfl

/-- With a cutoff the noise rows with smaller keys are deleted. -/
theorem cull_older
    {c : TimelineRow}
    (h : t.BlobKeyed)
    (hc : KthNewest fold t (keep + 1) c)
    (hp : ∀ row, p row = (isNoise fold row && row.uuid7.lt c.uuid7)) :
    CullsNoise fold t (keep + 1) (countNoise fold t - countNoise fold (t.deleteWhere p))
      (t.deleteWhere p) := by
  have hcount : countNoise fold t =
      t.rows.countP p + countNoise fold (t.deleteWhere p) :=
    countNoise_deleteWhere fun row hrow => by
      rw [hp] at hrow
      exact (Bool.and_eq_true_iff.mp hrow).1
  rw [hcount, Nat.add_sub_cancel]
  refine cullsNoise_deleteWhere h (fun row _ => ?_) fun hfew => ?_
  · rw [hp, Bool.and_eq_true, Culled]
    refine and_congr_right fun _ => ⟨fun hlt => Or.inr ⟨c, hc, hlt⟩, ?_⟩
    rintro (hzero | ⟨c', hc', hlt⟩)
    · cases hzero
    · have hsame := ((getElem?_sorted_iff h).mpr hc).symm.trans
        ((getElem?_sorted_iff h).mpr hc')
      rwa [Option.some.inj hsame]
  · have henough := ((exists_kthNewest_iff h).mp ⟨c, hc⟩).2
    omega

/-- The cull deletes exactly the noise rows older than the last one to keep, and
returns their number. -/
theorem cullTimelineNoise_cullsNoise
    (fold : Char → Char) (t : TimelineTable) (keep : Nat)
    (h : t.BlobKeyed) :
    ∃ deleted t', cullTimelineNoise fold (some t) keep = .ok (deleted, t') ∧
      CullsNoise fold t keep deleted t' := by
  cases keep with
  | zero => exact ⟨_, _, rfl, cull_zero h⟩
  | succ n =>
      have hselect := selectKey_eq fold t n
      cases hrow : ((noiseRows fold t).insertionSort greatestKeyFirst)[n]? with
      | none =>
          have hfew : ¬ ∃ c, KthNewest fold t (n + 1) c := by
            rintro ⟨c, hc⟩
            rw [(getElem?_sorted_iff h).mpr hc] at hrow
            cases hrow
          refine ⟨0, t, ?_, cull_few h hfew⟩
          simp [cullTimelineNoise, hselect, hrow]
      | some c =>
          have hc := (getElem?_sorted_iff h).mp hrow
          obtain ⟨-, -, hmem, -⟩ := id hc
          obtain ⟨b, hb⟩ := h c (List.mem_of_mem_filter hmem)
          have hkey : (selectKey fold t n).bind keyBytes = some b := by
            rw [hselect, hrow, Option.map_some, hb]
            rfl
          refine ⟨_, _, ?_, cull_older h hc fun row => rfl⟩
          simp only [cullTimelineNoise, Nat.succ_ne_zero, if_false, Nat.add_sub_cancel,
            hkey, blobLiteral_hexUpper, hb]
          rfl

/-- A connect, a log, a chat row and a disconnect, newest first. -/
def fourRows : TimelineTable where
  rows :=
    [{ uuid7 := .blob [4], eventType := 5, rawMessage := "left",
       command := some "module_lifecycle",
       flags := some "\x7b\"kind\":\"module_disconnect\"\x7d" },
      { uuid7 := .blob [3], rawMessage := "hello" },
      { uuid7 := .blob [2], eventType := 5, rawMessage := "ready",
        command := some "module_lifecycle",
        flags := some "\x7b\"kind\":\"module_log\"\x7d" },
      { uuid7 := .blob [1], eventType := 5, rawMessage := "joined",
        command := some "module_lifecycle",
        flags := some "\x7b\"kind\":\"module_connect\"\x7d" }]
  unique := by decide

example :
    (cullTimelineNoise Char.toLower (some fourRows) 2).map
      (fun r => (r.1, r.2.rows.map (·.uuid7))) =
        .ok (1, [.blob [4], .blob [3], .blob [2]]) := by
  decide

theorem blobKeyed_fourRows : fourRows.BlobKeyed := by
  simp [TimelineTable.BlobKeyed, fourRows]

theorem cullTimelineNoise_fourRows :
    ∃ deleted t', cullTimelineNoise Char.toLower (some fourRows) 2 = .ok (deleted, t') ∧
      CullsNoise Char.toLower fourRows 2 deleted t' :=
  cullTimelineNoise_cullsNoise Char.toLower fourRows 2 blobKeyed_fourRows

end Culling

end CockatielEngine
