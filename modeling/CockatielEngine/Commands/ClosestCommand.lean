import Mathlib.Data.List.MinMax
import CockatielEngine.Commands.EditDistance
import CockatielEngine.Commands.Registrations

/-!
# Commands: the command that is suggested for an unknown one

`closest_command` picks the registered name with the least edit distance to the
typed one, and accepts it by another criterion: a distance of at most two, or that one
of the names is a beginning of the other.

**Main result.**  A suggestion is made, in every iteration order, exactly when some
registered name can be accepted, if and only if those of the least distance can be
accepted whenever any can.
-/

namespace CockatielEngine

section Program

/-- The command names registered under the flag. -/
def CommandRegistry.names (r : CommandRegistry) (flag : String) : List String :=
  (r.index.filter fun b => b.1.1 = flag).map (·.1.2)

/-- The body of the loop over the names. -/
def keepCloser (want : String) (best : Option (Nat × String)) (n : String) :
    Option (Option (Nat × String)) := do
  let d ← editDistance want (toAsciiLowercase n)
  if (best.map fun b => decide (d < b.1)).getD true then some (some (d, n))
  else some best

/-- What is accepted of the best name. -/
def acceptCloser (want : String) (best : Nat × String) : Option String :=
  let ln := toAsciiLowercase best.2
  if best.1 ≤ 2 ∨ want.toList.isPrefixOf ln.toList ∨ ln.toList.isPrefixOf want.toList then
    some best.2
  else none

/-- `closest_command`; the outer `none` is a panic. -/
def closestCommand (reg : CommandRegistry) (flag name : String) :
    Option (Option String) := do
  let want := toAsciiLowercase name
  let best ← (reg.names flag).foldlM (keepCloser want) none
  some (best.bind (acceptCloser want))

end Program

section Meaning

/-- The edit distance of two names, ignoring ASCII case. -/
def nameDistance (typed n : String) : Nat :=
  levenshtein (toAsciiLowercase typed).toList (toAsciiLowercase n).toList

/-- The name is within edit distance 2 of the typed one, or a prefix or an extension
of it, ignoring ASCII case. -/
def CloseTo (typed n : String) : Prop :=
  nameDistance typed n ≤ 2 ∨
    (toAsciiLowercase n).toList <+: (toAsciiLowercase typed).toList ∨
    (toAsciiLowercase typed).toList <+: (toAsciiLowercase n).toList

/-- In every iteration order, there is no suggestion only if no name is close, a
suggestion is a close name, and whether there is one is the same as in any other. -/
structure SuggestsClose (r : CommandRegistry) (flag name : String) : Prop where
  returns : ∀ r', r.SameMaps r' → ∃ s, closestCommand r' flag name = some s
  of_none : ∀ r', r.SameMaps r' → closestCommand r' flag name = some none →
    ∀ n ∈ r.names flag, ¬ CloseTo name n
  of_some : ∀ r' n, r.SameMaps r' → closestCommand r' flag name = some (some n) →
    n ∈ r.names flag ∧ CloseTo name n
  order : ∀ r' r'' s' s'', r.SameMaps r' → r.SameMaps r'' →
    closestCommand r' flag name = some s' → closestCommand r'' flag name = some s'' →
    s'.isSome = s''.isSome

/-- The registered names of the least distance are close if any name is. -/
def NearestClose (r : CommandRegistry) (flag name : String) : Prop :=
  (∃ n ∈ r.names flag, CloseTo name n) →
    ∀ n ∈ r.names flag, (∀ m ∈ r.names flag, nameDistance name n ≤ nameDistance name m) →
      CloseTo name n

end Meaning

section Suggestions

variable {r r' : CommandRegistry} {flag name typed n : String}

instance (typed n : String) : Decidable (CloseTo typed n) :=
  inferInstanceAs (Decidable (_ ∨ _ ∨ _))

theorem keepCloser_eq
    (typed n : String) (best : Option (Nat × String)) :
    keepCloser (toAsciiLowercase typed) best n =
      if (best.map fun b => decide (nameDistance typed n < b.1)).getD true then
        some (some (nameDistance typed n, n))
      else some best := by
  rw [keepCloser, (editDistance_eq _ _).1]
  rfl

/-- The loop keeps the first name of the least distance, with its distance. -/
theorem foldlM_keepCloser
    (typed : String) (names : List String) :
    names.foldlM (keepCloser (toAsciiLowercase typed)) none =
      some ((names.argmin (nameDistance typed)).map
        fun n => (nameDistance typed n, n)) := by
  induction names using List.reverseRecOn with
  | nil => rfl
  | append_singleton names n ih =>
      rw [List.foldlM_append, ih, List.argmin_concat]
      change (keepCloser _ _ n).bind some = _
      rw [Option.bind_fun_some, keepCloser_eq]
      cases names.argmin (nameDistance typed) with
      | none => rfl
      | some m =>
          simp only [Option.map_some, Option.getD_some, decide_eq_true_eq]
          split <;> rfl

theorem acceptCloser_eq :
    acceptCloser (toAsciiLowercase typed) (nameDistance typed n, n) =
      if CloseTo typed n then some n else none := by
  simp only [acceptCloser, CloseTo, List.isPrefixOf_iff_prefix]
  refine if_congr (or_congr_right or_comm) rfl rfl

/-- The suggestion is the first name of the least distance, if that is close. -/
theorem closestCommand_eq
    (r : CommandRegistry) (flag name : String) :
    closestCommand r flag name =
      some (((r.names flag).argmin (nameDistance name)).filter (CloseTo name ·)) := by
  rw [closestCommand, foldlM_keepCloser]
  change some (Option.bind _ _) = _
  rw [Option.bind_map]
  congr 1
  cases (r.names flag).argmin (nameDistance name) with
  | none => rfl
  | some n =>
      rw [Option.bind_some, Function.comp_apply, acceptCloser_eq, Option.filter_some]
      simp

/-! ## The order of the names -/

theorem CommandRegistry.SameMaps.names
    (h : r.SameMaps r') :
    (r'.names flag).Perm (r.names flag) :=
  (h.index.filter _).map _

/-- Any registered name comes first in some order. -/
theorem exists_sameMaps_names
    (hn : n ∈ r.names flag) :
    ∃ r' rest, r.SameMaps r' ∧ r'.names flag = n :: rest := by
  obtain ⟨b, hb, rfl⟩ := List.mem_map.mp hn
  obtain ⟨hmem, hflag⟩ := List.mem_filter.mp hb
  have hfirst : ((b :: r.index.erase b).filter fun b => b.1.1 = flag).map (·.1.2) =
      b.1.2 :: ((r.index.erase b).filter fun b => b.1.1 = flag).map (·.1.2) := by
    rw [List.filter_cons, if_pos hflag, List.map_cons]
  exact ⟨{ r with index := b :: r.index.erase b }, _,
    ⟨(List.perm_cons_erase hmem).symm, .refl _⟩, hfirst⟩

/-- The first of the names of the least distance is chosen. -/
theorem argmin_cons_of_least
    {rest : List String}
    (hleast : ∀ m ∈ n :: rest, nameDistance typed n ≤ nameDistance typed m) :
    (n :: rest).argmin (nameDistance typed) = some n := by
  refine List.argmin_eq_some_iff.mpr ⟨List.mem_cons_self, hleast, fun m _ _ => ?_⟩
  rw [List.idxOf_cons_self]
  exact Nat.zero_le _

/-- Whatever is suggested is close. -/
theorem closeTo_of_closestCommand
    (h : closestCommand r flag name = some (some n)) :
    n ∈ r.names flag ∧ CloseTo name n := by
  rw [closestCommand_eq] at h
  obtain ⟨hmin, hclose⟩ := Option.filter_eq_some_iff.mp (Option.some.inj h)
  exact ⟨List.argmin_mem hmin, of_decide_eq_true hclose⟩

/-- Where the nearest names are close if any are, none is overlooked. -/
theorem NearestClose.not_closeTo
    (h : NearestClose r flag name)
    (hnone : closestCommand r flag name = some none) :
    ∀ n ∈ r.names flag, ¬ CloseTo name n := by
  intro n hn hclose
  rw [closestCommand_eq, Option.some.injEq, Option.filter_eq_none_iff] at hnone
  cases hmin : (r.names flag).argmin (nameDistance name) with
  | none =>
      rw [List.argmin_eq_none.mp hmin] at hn
      cases hn
  | some m =>
      have hleast := h ⟨n, hn, hclose⟩ m (List.argmin_mem hmin) fun m' hm' =>
        List.le_of_mem_argmin hm' hmin
      exact hnone m hmin (decide_eq_true hleast)

theorem nearestClose_sameMaps
    (h : r.SameMaps r') :
    NearestClose r' flag name ↔ NearestClose r flag name := by
  simp only [NearestClose, h.names.mem_iff]

/-- A suggestion is made exactly where it should be, if and only if the nearest names
are close if any are. -/
theorem suggestsClose_iff
    (r : CommandRegistry) (flag name : String) :
    SuggestsClose r flag name ↔ NearestClose r flag name := by
  constructor
  · rintro h ⟨n, hn, hclose⟩ m hm hleast
    by_contra hfar
    obtain ⟨r', rest, hsame, hnames⟩ := exists_sameMaps_names hm
    have hmin : (r'.names flag).argmin (nameDistance name) = some m := by
      rw [hnames]
      exact argmin_cons_of_least fun m' hm' =>
        hleast m' (hsame.names.mem_iff.mp (hnames ▸ hm'))
    refine h.of_none r' hsame ?_ n hn hclose
    rw [closestCommand_eq, hmin, Option.filter_some_neg (by simpa using hfar)]
  · intro h
    have hnone : ∀ r', r.SameMaps r' → closestCommand r' flag name = some none →
        ∀ n ∈ r.names flag, ¬ CloseTo name n := fun r' hsame hr' n hn =>
      ((nearestClose_sameMaps hsame).mpr h).not_closeTo hr' n
        (hsame.names.mem_iff.mpr hn)
    have hsome : ∀ r' n, r.SameMaps r' → closestCommand r' flag name = some (some n) →
        n ∈ r.names flag ∧ CloseTo name n := fun r' n hsame hr' =>
      (closeTo_of_closestCommand hr').imp_left hsame.names.mem_iff.mp
    refine ⟨fun r' _ => ⟨_, closestCommand_eq r' flag name⟩, hnone, hsome, ?_⟩
    rintro r' r'' (_ | n') (_ | n'') hsame' hsame'' hr' hr''
    · rfl
    · obtain ⟨hn, hclose⟩ := hsome r'' n'' hsame'' hr''
      exact absurd hclose (hnone r' hsame' hr' n'' hn)
    · obtain ⟨hn, hclose⟩ := hsome r' n' hsame' hr'
      exact absurd hclose (hnone r'' hsame'' hr'' n' hn)
    · rfl

/-! ## A nearer command that is not like the typed one -/

/-- A module with two commands. -/
def hugAndSongrequest : CommandRegistry :=
  registerAll [("a", { commands :=
    [{ commandFlag := "!", commandName := "hug" },
      { commandFlag := "!", commandName := "songrequest" }] })]

/-- The extension is overlooked, since the other name is nearer. -/
theorem not_suggestsClose_song :
    ¬ SuggestsClose hugAndSongrequest "!" "song" := by
  intro h
  have hnone : closestCommand hugAndSongrequest "!" "song" = some none := by decide
  refine h.of_none _ ⟨.refl _, .refl _⟩ hnone "songrequest" (by decide) ?_
  exact Or.inr (Or.inr (by decide))

end Suggestions

end CockatielEngine
