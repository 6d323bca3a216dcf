import Mathlib.Data.List.Sort
import Mathlib.Data.Rat.Lemmas
import Mathlib.Tactic

/-!
# Ranks: the names of ranks

A chart has tiers with a name and the least rank of it, in any order.  It is sorted
when it is loaded, and a rank has the name of the last tier that does not start above
it.

Numbers are taken as exact.  What the parser makes of the text of a chart is a
parameter.

**Main result.**  A rank that is not below all tiers has the name of a tier with the
greatest minimum not above it; one that is has no tier's name at all.
-/

namespace CockatielEngine

section Program

structure RankTier where
  name : String
  min : ℚ
deriving DecidableEq

/-- The order of the tiers. -/
def RankTier.lowerFirst (a b : RankTier) : Bool :=
  decide (a.min ≤ b.min)

/-- A chart with its tiers from the lowest to the highest. -/
structure RankChart where
  tiers : List RankTier
  sorted : tiers.Pairwise fun a b => a.min ≤ b.min

/-- `sort_by`, which keeps the order of equals. -/
def RankChart.ofTiers (tiers : List RankTier) : RankChart where
  tiers := tiers.mergeSort RankTier.lowerFirst
  sorted := by
    refine (List.pairwise_mergeSort (fun a b c hab hbc => ?_) (fun a b => ?_) tiers).imp
      fun h => of_decide_eq_true h
    · exact decide_eq_true (le_trans (of_decide_eq_true hab) (of_decide_eq_true hbc))
    · simpa [RankTier.lowerFirst] using le_total a.min b.min

/-- `from_json`. -/
def RankChart.fromJson (parse : String → Except String (List RankTier))
    (data : String) : Except String RankChart :=
  match parse data with
  | .ok tiers => .ok (RankChart.ofTiers tiers)
  | .error e => .error ("rank_chart.json parse error: " ++ e)

/-- The loop over the tiers, which ends at the first one above the rank. -/
def lastReached (rank : ℚ) (name : String) : List RankTier → String
  | [] => name
  | t :: rest => if t.min ≤ rank then lastReached rank t.name rest else name

/-- `name_for_rank`. -/
def RankChart.nameForRank (chart : RankChart) (rank : ℚ) : String :=
  lastReached rank "—" chart.tiers

end Program

section Meaning

/-- The name of a tier with the greatest minimum not above the rank, or, where the
rank is below every minimum, of a tier with the lowest one. -/
structure NamesTier (tiers : List RankTier) (rank : ℚ) (name : String) : Prop where
  reached : (∃ t ∈ tiers, t.min ≤ rank) → ∃ t ∈ tiers, t.name = name ∧ t.min ≤ rank ∧
    ∀ t' ∈ tiers, t'.min ≤ rank → t'.min ≤ t.min
  below : (∀ t ∈ tiers, rank < t.min) → ∃ t ∈ tiers, t.name = name ∧
    ∀ t' ∈ tiers, t.min ≤ t'.min

/-- The rank is not below every tier, or a lowest tier has the dash for its name. -/
def ReachesTier (tiers : List RankTier) (rank : ℚ) : Prop :=
  (∃ t ∈ tiers, t.min ≤ rank) ∨ ∃ t ∈ tiers, t.name = "—" ∧ ∀ t' ∈ tiers, t.min ≤ t'.min

end Meaning

section Lookup

variable {tiers : List RankTier} {rank : ℚ} {name : String}

/-- Below every tier the loop ends at once. -/
theorem lastReached_of_below
    (h : ∀ t ∈ tiers, rank < t.min) :
    lastReached rank name tiers = name := by
  cases tiers with
  | nil => rfl
  | cons t rest => exact if_neg (h t List.mem_cons_self).not_ge

/-- Otherwise it ends behind a tier with the greatest minimum not above the rank. -/
theorem exists_lastReached
    (name : String)
    (hsorted : tiers.Pairwise fun a b => a.min ≤ b.min)
    (h : ∃ t ∈ tiers, t.min ≤ rank) :
    ∃ t ∈ tiers, t.name = lastReached rank name tiers ∧ t.min ≤ rank ∧
      ∀ t' ∈ tiers, t'.min ≤ rank → t'.min ≤ t.min := by
  induction tiers generalizing name with
  | nil =>
      obtain ⟨t, ht, -⟩ := h
      cases ht
  | cons first rest ih =>
      obtain ⟨hfirst, hrest⟩ := List.pairwise_cons.mp hsorted
      have hreached : first.min ≤ rank := by
        obtain ⟨t, ht, hle⟩ := h
        rcases List.mem_cons.mp ht with rfl | ht
        · exact hle
        · exact (hfirst t ht).trans hle
      rw [lastReached, if_pos hreached]
      by_cases hmore : ∃ t ∈ rest, t.min ≤ rank
      · obtain ⟨t, ht, hname, hle, hgreatest⟩ := ih first.name hrest hmore
        refine ⟨t, List.mem_cons_of_mem _ ht, hname, hle, fun t' ht' hle' => ?_⟩
        rcases List.mem_cons.mp ht' with rfl | ht'
        · exact hfirst t ht
        · exact hgreatest t' ht' hle'
      · have hbelow : ∀ t ∈ rest, rank < t.min := fun t ht =>
          lt_of_not_ge fun hle => hmore ⟨t, ht, hle⟩
        refine ⟨first, List.mem_cons_self, (lastReached_of_below hbelow).symm, hreached,
          fun t' ht' hle' => ?_⟩
        rcases List.mem_cons.mp ht' with rfl | ht'
        · exact le_rfl
        · exact absurd ⟨t', ht', hle'⟩ hmore

theorem mem_tiers_ofTiers
    {t : RankTier} :
    t ∈ (RankChart.ofTiers tiers).tiers ↔ t ∈ tiers :=
  List.mem_mergeSort

/-- Loading and lookup meet the specification where a tier is reached, and elsewhere
only by the name. -/
theorem namesTier_ofTiers_iff :
    NamesTier tiers rank ((RankChart.ofTiers tiers).nameForRank rank) ↔
      ReachesTier tiers rank := by
  by_cases hreached : ∃ t ∈ tiers, t.min ≤ rank
  · refine iff_of_true ⟨fun _ => ?_, fun hbelow => ?_⟩ (Or.inl hreached)
    · have hspec := exists_lastReached "—" (RankChart.ofTiers tiers).sorted
        (by simpa only [mem_tiers_ofTiers] using hreached)
      simpa only [mem_tiers_ofTiers, RankChart.nameForRank] using hspec
    · obtain ⟨t, ht, hle⟩ := hreached
      exact absurd hle (hbelow t ht).not_ge
  · have hbelow : ∀ t ∈ tiers, rank < t.min := fun t ht =>
      lt_of_not_ge fun hle => hreached ⟨t, ht, hle⟩
    have hname : (RankChart.ofTiers tiers).nameForRank rank = "—" :=
      lastReached_of_below fun t ht => hbelow t (mem_tiers_ofTiers.mp ht)
    rw [hname, ReachesTier, or_iff_right hreached]
    exact ⟨fun h => h.below hbelow, fun h => ⟨fun h' => absurd h' hreached, fun _ => h⟩⟩

/-- A chart that is read gives the name it should for exactly the ranks that are not
below all tiers, a tier with the name of the fallback apart. -/
theorem namesTier_iff_reachesTier
    (parse : String → Except String (List RankTier))
    (data : String) (tiers : List RankTier) (rank : ℚ)
    (hparse : parse data = .ok tiers) :
    ∃ chart, RankChart.fromJson parse data = .ok chart ∧
      (NamesTier tiers rank (chart.nameForRank rank) ↔ ReachesTier tiers rank) := by
  refine ⟨RankChart.ofTiers tiers, ?_, namesTier_ofTiers_iff⟩
  rw [RankChart.fromJson, hparse]

/-- A chart that starts at one half. -/
def bronzeAndGold : List RankTier :=
  [{ name := "gold", min := 4 / 5 }, { name := "bronze", min := 1 / 2 }]

/-- The chart as its file has it. -/
def bronzeAndGoldText : String :=
  "\x7b\"tiers\":[\x7b\"name\":\"gold\",\"min\":0.8\x7d," ++
    "\x7b\"name\":\"bronze\",\"min\":0.5\x7d]\x7d"

/-- A parser for that text. -/
def parseBronzeAndGold (data : String) : Except String (List RankTier) :=
  if data = bronzeAndGoldText then .ok bronzeAndGold else .error "expected value"

theorem namesTier_iff_reachesTier_bronze :
    ∃ chart, RankChart.fromJson parseBronzeAndGold bronzeAndGoldText = .ok chart ∧
      NamesTier bronzeAndGold (3 / 5) (chart.nameForRank (3 / 5)) := by
  obtain ⟨chart, hchart, hiff⟩ := namesTier_iff_reachesTier parseBronzeAndGold
    bronzeAndGoldText bronzeAndGold (3 / 5) (if_pos rfl)
  have hbronze : ({ name := "bronze", min := 1 / 2 } : RankTier) ∈ bronzeAndGold := by
    simp [bronzeAndGold]
  exact ⟨chart, hchart, hiff.mpr (Or.inl ⟨_, hbronze, by norm_num⟩)⟩

/-- A rank below bronze has no tier's name. -/
theorem not_namesTier_belowBronze :
    ¬ ∀ (parse : String → Except String (List RankTier)) (data : String)
      (tiers : List RankTier) (rank : ℚ) (chart : RankChart),
      parse data = .ok tiers → tiers ≠ [] → RankChart.fromJson parse data = .ok chart →
        NamesTier tiers rank (chart.nameForRank rank) := by
  intro h
  have hchart : RankChart.fromJson parseBronzeAndGold bronzeAndGoldText =
      .ok (RankChart.ofTiers bronzeAndGold) := by
    rw [RankChart.fromJson, parseBronzeAndGold, if_pos rfl]
  have hname := h parseBronzeAndGold bronzeAndGoldText bronzeAndGold (1 / 5) _
    (if_pos rfl) (List.cons_ne_nil _ _) hchart
  have hbelow : ∀ t ∈ bronzeAndGold, 1 / 5 < t.min := by
    simp only [bronzeAndGold, List.forall_mem_cons, List.not_mem_nil, IsEmpty.forall_iff,
      implies_true, and_true]
    norm_num
  obtain ⟨t, ht, htname, -⟩ := hname.below hbelow
  have hdash : (RankChart.ofTiers bronzeAndGold).nameForRank (1 / 5) = "—" :=
    lastReached_of_below fun t ht => hbelow t (mem_tiers_ofTiers.mp ht)
  rw [hdash] at htname
  simp only [bronzeAndGold, List.mem_cons, List.not_mem_nil, or_false] at ht
  rcases ht with rfl | rfl
  · exact absurd htname (by decide)
  · exact absurd htname (by decide)

end Lookup

end CockatielEngine
