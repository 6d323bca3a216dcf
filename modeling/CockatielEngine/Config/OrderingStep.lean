import CockatielEngine.Config.AutoConfig

/-!
# Config: the ordering step of the auto-configuration

The step of a module refreshes its entries where it is listed, and pushes one where
it is not.  It leaves the settings so that it would change nothing again, and what
another module's step changes does not undo that.
-/

namespace CockatielEngine

section Entries

variable {name n : String} {l l' kept rest : List JsonValue} {e e' e'' v : JsonValue}

theorem JsonValue.set_self
    {key : String}
    (h : e.get key = some v) :
    e.set key v = e := by
  cases e with
  | obj fields =>
      have hfields : JsonValue.setField key v fields = fields := by
        induction fields with
        | nil => cases h
        | cons f fields ih =>
            rw [JsonValue.get_obj_cons] at h
            rw [JsonValue.setField]
            split at h
            · rename_i hf
              rw [if_pos hf, ← Option.some.inj h, ← hf]
            · rename_i hf
              rw [if_neg hf, ih h]
      exact congrArg JsonValue.obj hfields
  | _ => cases h

theorem isObject_of_isNamed
    (h : isNamed name e = true) :
    e.isObject = true := by
  cases e with
  | obj fields => rfl
  | _ => simp [isNamed, JsonValue.get] at h

@[simp] theorem isNamed_set_priority :
    isNamed n (e.set "priority" v) = isNamed n e := by
  cases hobject : e.isObject with
  | true => rw [isNamed, isNamed, JsonValue.get_set hobject, if_neg (by decide)]
  | false =>
      cases e with
      | obj fields => cases hobject
      | _ => rfl

/-- The two entries have the same name, if any. -/
def SameName (e e' : JsonValue) : Prop :=
  ∀ n, isNamed n e' = isNamed n e

/-- The first entry of the name has the priority that it is given. -/
def AtAutoPriority (name : String) (l : List JsonValue) : Prop :=
  ∀ e, l.find? (isNamed name) = some e → e.get "priority" = some autoPriority

theorem sameName_refresh :
    List.Forall₂ SameName l (refreshEntry name l) := by
  induction l with
  | nil => exact .nil
  | cons e l ih =>
      rw [refreshEntry]
      split
      · exact .cons (fun n => isNamed_set_priority)
          (List.forall₂_same.mpr fun _ _ _ => rfl)
      · exact .cons (fun n => rfl) ih

/-- Entries of the same names are named alike. -/
theorem any_isNamed
    (h : List.Forall₂ SameName l l') :
    l'.any (isNamed n) = l.any (isNamed n) := by
  induction h with
  | nil => rfl
  | cons hname _ ih => rw [List.any_cons, List.any_cons, hname, ih]

theorem isNamed_eq
    (h : isNamed name e = true) :
    isNamed n e = true ↔ n = name := by
  have hname := of_decide_eq_true h
  rw [isNamed, hname, decide_eq_true_eq, Option.some.injEq, eq_comm]

/-- A refresh gives the first entry of its name the priority, and leaves those of
other names. -/
theorem find?_refreshEntry :
    (refreshEntry name l).find? (isNamed n) =
      if n = name then
        (l.find? (isNamed n)).map fun e => e.set "priority" autoPriority
      else l.find? (isNamed n) := by
  induction l with
  | nil => split <;> rfl
  | cons e l ih =>
      rw [refreshEntry]
      split
      · rename_i hname
        rw [List.find?_cons, List.find?_cons, isNamed_set_priority]
        cases hn : isNamed n e with
        | true => rw [if_pos ((isNamed_eq hname).mp hn), Option.map_some]
        | false =>
            have hne : ¬ n = name := fun heq => by
              rw [(isNamed_eq hname).mpr heq] at hn
              cases hn
            rw [if_neg hne]
      · rw [List.find?_cons, List.find?_cons, ih]
        cases hn : isNamed n e with
        | false => rfl
        | true =>
            rename_i hname
            have hne : ¬ n = name := fun heq => hname (heq ▸ hn)
            exact (if_neg hne).symm

theorem atAutoPriority_refresh
    (h : n = name ∨ AtAutoPriority n l) :
    AtAutoPriority n (refreshEntry name l) := by
  intro e' he'
  rw [find?_refreshEntry] at he'
  split at he'
  · obtain ⟨e, hfind, rfl⟩ := Option.map_eq_some_iff.mp he'
    rw [JsonValue.get_set (isObject_of_isNamed (List.find?_some hfind)), if_pos rfl]
  · rename_i hne
    exact h.resolve_left hne e' he'

theorem usesAutoPriority_refresh
    (h : UsesAutoPriority n l) :
    UsesAutoPriority n (refreshEntry name l) := by
  intro e' he' p hp
  rw [find?_refreshEntry] at he'
  split at he'
  · obtain ⟨e, hfind, rfl⟩ := Option.map_eq_some_iff.mp he'
    rw [JsonValue.get_set (isObject_of_isNamed (List.find?_some hfind)), if_pos rfl] at hp
    exact (Option.some.inj hp).symm
  · exact h e' he' p hp

/-- What has the priority already is not changed by a refresh. -/
theorem refreshEntry_of_atAutoPriority
    (h : AtAutoPriority name l) :
    refreshEntry name l = l := by
  induction l with
  | nil => rfl
  | cons e l ih =>
      rw [refreshEntry]
      split
      · rename_i hname
        rw [JsonValue.set_self (h e (by rw [List.find?_cons, hname]))]
      · rename_i hname
        rw [ih fun e' he' => h e' (by
          rw [List.find?_cons, Bool.eq_false_iff.mpr hname]
          exact he')]

theorem AtAutoPriority.usesAutoPriority
    (h : AtAutoPriority n l) :
    UsesAutoPriority n l :=
  fun e he _ hp => Option.some.inj (hp.symm.trans (h e he))

theorem AtAutoPriority.append
    (h : AtAutoPriority n l)
    (he : e.get "priority" = some autoPriority) :
    AtAutoPriority n (l ++ [e]) := by
  intro e' he'
  rw [List.find?_append, List.find?_singleton] at he'
  rcases Option.or_eq_some_iff.mp he' with hfind | ⟨-, hlast⟩
  · exact h e' hfind
  · obtain rfl := Option.some.inj (Option.ite_none_right_eq_some.mp hlast).2
    exact he

theorem UsesAutoPriority.append
    (h : UsesAutoPriority n l)
    (he : e.get "priority" = some autoPriority) :
    UsesAutoPriority n (l ++ [e]) := by
  intro e' he' p hp
  rw [List.find?_append, List.find?_singleton] at he'
  rcases Option.or_eq_some_iff.mp he' with hfind | ⟨-, hlast⟩
  · exact h e' hfind p hp
  · obtain rfl := Option.some.inj (Option.ite_none_right_eq_some.mp hlast).2
    exact Option.some.inj (hp.symm.trans he)

theorem atAutoPriority_nil : AtAutoPriority n [] :=
  fun _ he => nomatch he

theorem KeepsEntry.trans
    (h : KeepsEntry e e')
    (h' : KeepsEntry e' e'') :
    KeepsEntry e e'' := by
  rcases h with rfl | ⟨hobject, hfields⟩
  · exact h'
  · rcases h' with rfl | ⟨-, hfields'⟩
    · exact Or.inr ⟨hobject, hfields⟩
    · exact Or.inr ⟨hobject, fun key v hget => hfields' key v (hfields key v hget)⟩

theorem forall₂_keepsEntry_refl : List.Forall₂ KeepsEntry l l :=
  List.forall₂_same.mpr fun _ _ => Or.inl rfl

/-- A refresh keeps the entries where the first of the name has no other
priority. -/
theorem keepsEntry_refresh
    (h : UsesAutoPriority name l) :
    List.Forall₂ KeepsEntry l (refreshEntry name l) := by
  induction l with
  | nil => exact .nil
  | cons e l ih =>
      rw [refreshEntry]
      split
      · rename_i hname
        have hobject := isObject_of_isNamed hname
        refine .cons (Or.inr ⟨hobject, fun key v hget => ?_⟩) forall₂_keepsEntry_refl
        rw [JsonValue.get_set hobject]
        split
        · rename_i hkey
          subst hkey
          rw [h e (by rw [List.find?_cons, hname]) v hget]
        · exact hget
      · rename_i hname
        refine .cons (Or.inl rfl) (ih fun e' he' => h e' ?_)
        rw [List.find?_cons, Bool.eq_false_iff.mpr hname]
        exact he'

/-- A refresh refreshes entries of the module only. -/
theorem refreshedEntry_refresh
    {registry : List DiscoveredModule} {m : DiscoveredModule}
    (hm : m ∈ registry) :
    List.Forall₂ (RefreshedEntry registry) l (refreshEntry m.name l) := by
  induction l with
  | nil => exact .nil
  | cons e l ih =>
      rw [refreshEntry]
      split
      · rename_i hname
        exact .cons (Or.inr ⟨⟨m, hm, hname⟩, rfl⟩)
          (List.forall₂_same.mpr fun _ _ => Or.inl rfl)
      · exact .cons (Or.inl rfl) ih

theorem RefreshedEntry.trans
    {registry : List DiscoveredModule}
    (h : RefreshedEntry registry e e')
    (h' : RefreshedEntry registry e' e'') :
    RefreshedEntry registry e e'' := by
  rcases h with rfl | ⟨⟨m, hm, hname⟩, rfl⟩
  · exact h'
  · rcases h' with rfl | ⟨-, rfl⟩
    · exact Or.inr ⟨⟨m, hm, hname⟩, rfl⟩
    · refine Or.inr ⟨⟨m, hm, hname⟩, JsonValue.set_self ?_⟩
      rw [JsonValue.get_set (isObject_of_isNamed hname), if_pos rfl]

/-- The first entry of a name that is kept and has the priority afterwards has had
no other. -/
theorem usesAutoPriority_of_kept
    (hnames : List.Forall₂ SameName l kept)
    (hkept : List.Forall₂ KeepsEntry l kept)
    (h : AtAutoPriority name (kept ++ rest)) :
    UsesAutoPriority name l := by
  induction hnames with
  | nil => exact fun e he => by cases he
  | @cons e e' l kept hname _ ih =>
      obtain ⟨hfirst, hothers⟩ := List.forall₂_cons.mp hkept
      intro found hfound p hp
      rw [List.find?_cons] at hfound
      split at hfound
      · rename_i hn
        obtain rfl := Option.some.inj hfound
        have hpriority := h e' (by rw [List.cons_append, List.find?_cons, hname, hn])
        rcases hfirst with rfl | ⟨-, hfields⟩
        · exact Option.some.inj (hp.symm.trans hpriority)
        · exact Option.some.inj ((hfields _ _ hp).symm.trans hpriority)
      · rename_i hn
        refine ih hothers (fun e'' he'' => h e'' ?_) found hfound p hp
        rw [List.cons_append, List.find?_cons, hname, hn]
        exact he''

end Entries

/-! ## The settings -/

/-- What a module's step makes of the value under a key: nothing else, a list with
its entry refreshed or pushed, or a new list. -/
inductive GrownValue (m : DiscoveredModule) (key : String) :
    Option JsonValue → Option JsonValue → Prop where
  | same (o : Option JsonValue) : GrownValue m key o o
  | refreshed (hkey : key ∈ orderingKeys) (l : List JsonValue) :
      GrownValue m key (some (.arr l)) (some (.arr (refreshEntry m.name l)))
  | pushed (hkey : key ∈ orderingKeys) (l : List JsonValue) :
      GrownValue m key (some (.arr l)) (some (.arr (l ++ [orderingEntry m])))
  | opened : GrownValue m key none (some (.arr [orderingEntry m]))

/-- The same for every key of an object. -/
def Grown (m : DiscoveredModule) (root root' : JsonValue) : Prop :=
  root'.isObject = true ∧ ∀ key, GrownValue m key (root.get key) (root'.get key)

/-- The module's step leaves the settings as they are: its entries have the
priority, and it is in a list or what should be its list is none. -/
structure SettledRoot (m : DiscoveredModule) (root : JsonValue) : Prop where
  isObject : root.isObject = true
  priorities : ∀ key ∈ orderingKeys, ∀ l, root.get key = some (.arr l) →
    AtAutoPriority m.name l
  placed : isListed m.name root = true ∨
    ∃ v, root.get (configListKey m.capabilities) = some v ∧ v.asArray = none

section Settings

variable {m n : DiscoveredModule} {root root' v : JsonValue} {name key key' : String}
variable {keys : List String} {l : List JsonValue}

theorem isListed_iff :
    isListed name root = true ↔
      ∃ key ∈ orderingKeys, ∃ l, root.get key = some (.arr l) ∧
        l.any (isNamed name) = true := by
  rw [isListed, List.any_eq_true]
  refine exists_congr fun key => and_congr_right fun _ => ?_
  cases hget : root.get key with
  | none => simp
  | some v => cases v <;> simp

theorem isNamed_orderingEntry : isNamed m.name (orderingEntry m) = true := by
  simp [isNamed, orderingEntry, JsonValue.get, JsonValue.asStr]

theorem get_priority_orderingEntry :
    (orderingEntry m).get "priority" = some autoPriority := rfl

/-- The value under a key with the entry of the name refreshed. -/
def refreshValue (name : String) : JsonValue → JsonValue
  | .arr l => .arr (refreshEntry name l)
  | v => v

theorem isObject_refreshIn :
    (refreshIn name root key).isObject = root.isObject := by
  unfold refreshIn
  split
  · exact JsonValue.isObject_set
  · rfl

theorem get_refreshIn
    (hobject : root.isObject = true) :
    (refreshIn name root key).get key' =
      if key' = key then (root.get key').map (refreshValue name) else root.get key' := by
  unfold refreshIn
  split
  · rename_i l hget
    rw [JsonValue.get_set hobject]
    split
    · rename_i hkey
      rw [hkey, hget]
      rfl
    · rfl
  · rename_i hnone
    split
    · rename_i hkey
      subst hkey
      cases hget : root.get key' with
      | none => rfl
      | some v =>
          cases v with
          | arr l => exact absurd hget (hnone l)
          | _ => rfl
    · rfl

theorem isObject_refreshAll :
    (keys.foldl (refreshIn name) root).isObject = root.isObject := by
  induction keys generalizing root with
  | nil => rfl
  | cons first keys ih => rw [List.foldl_cons, ih, isObject_refreshIn]

/-- Every list of the keys is refreshed once. -/
theorem get_refreshAll
    (hobject : root.isObject = true)
    (hkeys : keys.Nodup) :
    (keys.foldl (refreshIn name) root).get key =
      if key ∈ keys then (root.get key).map (refreshValue name)
      else root.get key := by
  induction keys generalizing root with
  | nil => simp
  | cons first keys ih =>
      obtain ⟨hfirst, hkeys⟩ := List.nodup_cons.mp hkeys
      rw [List.foldl_cons, ih (isObject_refreshIn.trans hobject) hkeys,
        get_refreshIn hobject]
      by_cases hkey : key = first
      · subst hkey
        simp [hfirst]
      · simp [hkey]

theorem grownValue_refreshValue
    {o : Option JsonValue}
    (hkey : key ∈ orderingKeys) :
    GrownValue m key o (o.map (refreshValue m.name)) := by
  cases o with
  | none => exact .same none
  | some v =>
      cases v with
      | arr l => exact .refreshed hkey l
      | _ => exact .same _

theorem GrownValue.asArray
    {o : Option JsonValue} {l' : List JsonValue}
    (h : GrownValue m key o (some (.arr l'))) :
    o = none ∧ l' = [orderingEntry m] ∨
      ∃ l, o = some (.arr l) ∧
        (l' = l ∨ l' = refreshEntry m.name l ∨ l' = l ++ [orderingEntry m]) := by
  cases h with
  | same => exact Or.inr ⟨l', rfl, Or.inl rfl⟩
  | refreshed _ l => exact Or.inr ⟨l, rfl, Or.inr (Or.inl rfl)⟩
  | pushed _ l => exact Or.inr ⟨l, rfl, Or.inr (Or.inr rfl)⟩
  | opened => exact Or.inl ⟨rfl, rfl⟩

/-- Where the first entry of a name has the priority, it has it afterwards. -/
theorem GrownValue.atAutoPriority
    {o : Option JsonValue} {l' : List JsonValue}
    (h : GrownValue m key o (some (.arr l')))
    (hbefore : ∀ l, o = some (.arr l) → AtAutoPriority name l) :
    AtAutoPriority name l' := by
  rcases h.asArray with ⟨-, rfl⟩ | ⟨l, hl, rfl | rfl | rfl⟩
  · exact atAutoPriority_nil.append get_priority_orderingEntry
  · exact hbefore _ hl
  · exact atAutoPriority_refresh (Or.inr (hbefore l hl))
  · exact (hbefore l hl).append get_priority_orderingEntry

/-- The names of a list stay, and more come at its end. -/
theorem GrownValue.names
    {o : Option JsonValue}
    (h : GrownValue m key (some (.arr l)) o) :
    ∃ kept rest, o = some (.arr (kept ++ rest)) ∧
      List.Forall₂ SameName l kept := by
  cases h with
  | same => exact ⟨l, [], by simp, List.forall₂_same.mpr fun _ _ _ => rfl⟩
  | refreshed => exact ⟨refreshEntry m.name l, [], by simp, sameName_refresh⟩
  | pushed => exact ⟨l, [_], rfl, List.forall₂_same.mpr fun _ _ _ => rfl⟩

theorem configListKey_mem
    (capabilities : String) :
    configListKey capabilities ∈ orderingKeys := by
  unfold configListKey
  split <;> decide

/-- What is in a list stays in one. -/
theorem isListed_grown
    (hgrown : Grown m root root')
    (h : isListed name root = true) :
    isListed name root' = true := by
  obtain ⟨key, hkey, l, hget, hany⟩ := isListed_iff.mp h
  have hvalue := hgrown.2 key
  rw [hget] at hvalue
  obtain ⟨kept, rest, hget', hnames⟩ := hvalue.names
  refine isListed_iff.mpr ⟨key, hkey, kept ++ rest, hget', ?_⟩
  rw [List.any_append, any_isNamed hnames, hany, Bool.true_or]

/-- The step of another module leaves a settled one settled. -/
theorem SettledRoot.grown
    (h : SettledRoot n root)
    (hgrown : Grown m root root') :
    SettledRoot n root' where
  isObject := hgrown.1
  priorities key hkey l' hget := by
    have hvalue := hgrown.2 key
    rw [hget] at hvalue
    exact hvalue.atAutoPriority (h.priorities key hkey)
  placed := by
    rcases h.placed with hlisted | ⟨v, hget, hnone⟩
    · exact Or.inl (isListed_grown hgrown hlisted)
    · refine Or.inr ⟨v, ?_, hnone⟩
      have hvalue := hgrown.2 (configListKey n.capabilities)
      rw [hget] at hvalue
      generalize root'.get (configListKey n.capabilities) = o at hvalue ⊢
      cases hvalue with
      | same => rfl
      | refreshed => cases hnone
      | pushed => cases hnone

theorem openList_of_isObject
    (key : String)
    (hobject : root.isObject = true) :
    ∃ root', openList root key = some root' ∧ root'.isObject = true ∧
      ∀ key', root'.get key' =
        if key' = key then some ((root.get key).getD (.arr [])) else root.get key' := by
  obtain ⟨fields, rfl⟩ : ∃ fields, root = .obj fields := by
    cases root with
    | obj fields => exact ⟨fields, rfl⟩
    | _ => cases hobject
  cases hget : (JsonValue.obj fields).get key with
  | some v =>
      refine ⟨.obj fields, by simp only [openList, hget], rfl, fun key' => ?_⟩
      split
      · rename_i hkey
        rw [hkey, hget, Option.getD_some]
      · rfl
  | none =>
      refine ⟨(JsonValue.obj fields).set key (.arr []), by simp only [openList, hget],
        rfl, fun key' => ?_⟩
      rw [JsonValue.get_set rfl, Option.getD_none]

/-- The value under a key with an entry pushed. -/
def pushValue (entry : JsonValue) : JsonValue → JsonValue
  | .arr l => .arr (l ++ [entry])
  | v => v

theorem isObject_pushTo
    {entry : JsonValue} :
    (pushTo root key entry).isObject = root.isObject := by
  unfold pushTo
  split
  · exact JsonValue.isObject_set
  · rfl

theorem get_pushTo
    {entry : JsonValue}
    (hobject : root.isObject = true) :
    (pushTo root key entry).get key' =
      if key' = key then (root.get key').map (pushValue entry)
      else root.get key' := by
  unfold pushTo
  split
  · rename_i l hget
    rw [JsonValue.get_set hobject]
    split
    · rename_i hkey
      rw [hkey, hget]
      rfl
    · rfl
  · rename_i hnone
    split
    · rename_i hkey
      subst hkey
      cases hget : root.get key' with
      | none => rfl
      | some v =>
          cases v with
          | arr l => exact absurd hget (hnone l)
          | _ => rfl
    · rfl

/-- A module that is listed has its priorities refreshed. -/
theorem orderModule_of_listed
    (hobject : root.isObject = true)
    (hlisted : isListed m.name root = true) :
    ∃ msg root', orderModule m root = some (msg, root') ∧ Grown m root root' ∧
      SettledRoot m root' := by
  have hkeys : orderingKeys.Nodup := by decide
  have hget : ∀ key, (orderingKeys.foldl (refreshIn m.name) root).get key =
      if key ∈ orderingKeys then (root.get key).map (refreshValue m.name)
      else root.get key := fun key => get_refreshAll hobject hkeys
  have hgrown : Grown m root (orderingKeys.foldl (refreshIn m.name) root) := by
    refine ⟨isObject_refreshAll.trans hobject, fun key => ?_⟩
    rw [hget key]
    split
    · rename_i hkey
      exact grownValue_refreshValue hkey
    · exact .same _
  refine ⟨_, _, if_pos hlisted, hgrown, hgrown.1, ?_,
    Or.inl (isListed_grown hgrown hlisted)⟩
  intro key hkey l hl
  rw [hget key, if_pos hkey] at hl
  obtain ⟨v, -, hv⟩ := Option.map_eq_some_iff.mp hl
  cases v with
  | arr l' =>
      obtain rfl := JsonValue.arr.inj hv
      exact atAutoPriority_refresh (Or.inl rfl)
  | _ => cases hv

/-- A module that is in no list has no entry whose priority could be another. -/
theorem atAutoPriority_of_not_listed
    (hlisted : isListed name root = false)
    (hkey : key ∈ orderingKeys)
    (hl : root.get key = some (.arr l)) :
    AtAutoPriority name l := by
  intro e he
  have hany : l.any (isNamed name) = true :=
    List.any_eq_true.mpr ⟨e, List.mem_of_find?_eq_some he, List.find?_some he⟩
  rw [isListed_iff.mpr ⟨key, hkey, l, hl, hany⟩] at hlisted
  cases hlisted

/-- An entry that is pushed to a list puts its module there. -/
theorem isListed_of_pushed
    (hkey : key ∈ orderingKeys)
    (hl : root.get key = some (.arr (l ++ [orderingEntry m]))) :
    isListed m.name root = true := by
  refine isListed_iff.mpr ⟨key, hkey, _, hl, ?_⟩
  rw [List.any_append, List.any_cons, isNamed_orderingEntry, Bool.true_or, Bool.or_true]

/-- What is pushed under the key of a stage, which is opened if it is not there. -/
theorem grownValue_pushValue
    {o : Option JsonValue}
    (hkey : key ∈ orderingKeys) :
    GrownValue m key o (some (pushValue (orderingEntry m) (o.getD (.arr [])))) := by
  cases o with
  | none => exact .opened
  | some v =>
      cases v with
      | arr l => exact .pushed hkey l
      | _ => exact .same _

/-- A module that is in no list is pushed to the list of its stage, if that is
one. -/
theorem orderModule_of_not_listed
    (hobject : root.isObject = true)
    (hlisted : isListed m.name root = false) :
    ∃ msg root', orderModule m root = some (msg, root') ∧ Grown m root root' ∧
      SettledRoot m root' := by
  have hstage := configListKey_mem m.capabilities
  obtain ⟨root₁, hopen, hobject₁, hget₁⟩ :=
    openList_of_isObject (configListKey m.capabilities) hobject
  set pushed := pushTo root₁ (configListKey m.capabilities) (orderingEntry m)
    with hpushed
  have hget : ∀ key, pushed.get key = if key = configListKey m.capabilities then
        some (pushValue (orderingEntry m) ((root.get key).getD (.arr [])))
      else root.get key := by
    intro key
    rw [hpushed, get_pushTo hobject₁, hget₁]
    split
    · rename_i hkey
      rw [hkey, Option.map_some]
    · rfl
  have hgrown : Grown m root pushed := by
    refine ⟨isObject_pushTo.trans hobject₁, fun key => ?_⟩
    rw [hget key]
    split
    · rename_i hkey
      exact grownValue_pushValue (hkey ▸ hstage)
    · exact .same _
  refine ⟨"added to " ++ configListKey m.capabilities ++ " ordering", pushed, ?_, hgrown,
    hgrown.1, ?_, ?_⟩
  · simp only [orderModule, hlisted, Bool.false_eq_true, if_false, hopen,
      Option.map_some, hpushed]
  · intro key hkey l' hl'
    have hvalue := hgrown.2 key
    rw [hl'] at hvalue
    exact hvalue.atAutoPriority fun l => atAutoPriority_of_not_listed hlisted hkey
  · have hkey := hget (configListKey m.capabilities)
    rw [if_pos rfl] at hkey
    cases hvalue : root.get (configListKey m.capabilities) with
    | none =>
        rw [hvalue] at hkey
        exact Or.inl (isListed_of_pushed (l := []) hstage hkey)
    | some v =>
        rw [hvalue] at hkey
        cases v with
        | arr l => exact Or.inl (isListed_of_pushed hstage hkey)
        | _ => exact Or.inr ⟨_, hkey, rfl⟩

/-- The step of a module on settings that are an object. -/
theorem orderModule_of_isObject
    (m : DiscoveredModule)
    (hobject : root.isObject = true) :
    ∃ msg root', orderModule m root = some (msg, root') ∧ Grown m root root' ∧
      SettledRoot m root' := by
  cases hlisted : isListed m.name root with
  | true => exact orderModule_of_listed hobject hlisted
  | false => exact orderModule_of_not_listed hobject hlisted

/-- On null the first list is opened as in an empty object. -/
theorem orderModule_null : orderModule m .null = orderModule m (.obj []) := rfl

/-- What is neither an object nor null panics. -/
theorem orderModule_of_not_isObject
    (hobject : root.isObject = false)
    (hnull : root ≠ .null) :
    orderModule m root = none := by
  cases root with
  | obj fields => cases hobject
  | null => exact absurd rfl hnull
  | _ => rfl

/-- The settings that a step leaves are an object that settles the module, grown
from the object that it found. -/
theorem orderModule_eq_some
    {msg : String}
    (h : orderModule m root = some (msg, root')) :
    SettledRoot m root' ∧ (root.isObject = true → Grown m root root') := by
  cases hobject : root.isObject with
  | true =>
      obtain ⟨msg', root₁, hstep, hgrown, hsettled⟩ := orderModule_of_isObject m hobject
      rw [h] at hstep
      obtain ⟨-, rfl⟩ := Prod.mk.inj (Option.some.inj hstep)
      exact ⟨hsettled, fun _ => hgrown⟩
  | false =>
      by_cases hnull : root = .null
      · rw [hnull, orderModule_null] at h
        obtain ⟨msg', root₁, hstep, -, hsettled⟩ :=
          orderModule_of_isObject m (show (JsonValue.obj []).isObject = true from rfl)
        rw [h] at hstep
        obtain ⟨-, rfl⟩ := Prod.mk.inj (Option.some.inj hstep)
        exact ⟨hsettled, fun hobject => nomatch hobject⟩
      · rw [orderModule_of_not_isObject hobject hnull] at h
        cases h

/-- Lists that have the priority already are not changed by a refresh. -/
theorem refreshAll_of_settled
    (h : SettledRoot m root)
    (hkeys : keys ⊆ orderingKeys) :
    keys.foldl (refreshIn m.name) root = root := by
  induction keys with
  | nil => rfl
  | cons key keys ih =>
      obtain ⟨hkey, hkeys⟩ := List.cons_subset.mp hkeys
      have hfirst : refreshIn m.name root key = root := by
        unfold refreshIn
        split
        · rename_i l hget
          rw [refreshEntry_of_atAutoPriority (h.priorities key hkey l hget),
            JsonValue.set_self hget]
        · rfl
      rw [List.foldl_cons, hfirst]
      exact ih hkeys

theorem pushTo_of_not_array
    {entry : JsonValue}
    (hget : root.get key = some v)
    (hnone : v.asArray = none) :
    pushTo root key entry = root := by
  cases v with
  | arr l => cases hnone
  | _ => simp only [pushTo, hget]

/-- A settled module changes nothing. -/
theorem orderModule_of_settled
    (h : SettledRoot m root) :
    ∃ msg, orderModule m root = some (msg, root) := by
  cases hlisted : isListed m.name root with
  | true =>
      refine ⟨"already placed in pipeline ordering — priority refreshed",
        (if_pos hlisted).trans ?_⟩
      rw [refreshAll_of_settled h (List.Subset.refl _)]
  | false =>
      rcases h.placed with hplaced | ⟨v, hget, hnone⟩
      · rw [hlisted] at hplaced
        cases hplaced
      · refine ⟨"added to " ++ configListKey m.capabilities ++ " ordering", ?_⟩
        simp only [orderModule, hlisted, Bool.false_eq_true, if_false, openList, hget,
          Option.map_some, pushTo_of_not_array hget hnone]

end Settings

end CockatielEngine
