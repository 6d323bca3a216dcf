import CockatielEngine.Config.SettledFiles

/-!
# Config: what a pass of the auto-configuration leaves alone

Each step keeps a file of the right form, but for the priorities that it refreshes
in the settings; what a pass keeps it has found of the right form.
-/

namespace CockatielEngine

section Keeping

variable {es es' es'' : List JsonValue} {root root' root'' : JsonValue}
variable {file file' file'' : Option FileText} {files files' files'' : AutoFiles}

theorem KeepsList.refl
    (es : List JsonValue) :
    KeepsList es es :=
  ⟨es, [], (List.append_nil es).symm, forall₂_keepsEntry_refl⟩

/-- What is related to a list with more at its end is one itself. -/
theorem exists_append_of_forall₂
    {R : JsonValue → JsonValue → Prop} {rest : List JsonValue}
    (h : List.Forall₂ R (es ++ rest) es') :
    ∃ kept rest', es' = kept ++ rest' ∧ List.Forall₂ R es kept := by
  induction es generalizing es' with
  | nil => exact ⟨[], es', rfl, .nil⟩
  | cons e es ih =>
      obtain ⟨e', es₁, hentry, hes₁, rfl⟩ := List.forall₂_cons_left_iff.mp h
      obtain ⟨kept, rest', rfl, hkept⟩ := ih hes₁
      exact ⟨e' :: kept, rest', rfl, .cons hentry hkept⟩

theorem forall₂_trans
    {R : JsonValue → JsonValue → Prop}
    (hR : ∀ e e' e'', R e e' → R e' e'' → R e e'')
    (h : List.Forall₂ R es es')
    (h' : List.Forall₂ R es' es'') :
    List.Forall₂ R es es'' := by
  induction h generalizing es'' with
  | nil => exact h'
  | cons hentry _ ih =>
      obtain ⟨e'', rest'', hentry', hrest', rfl⟩ := List.forall₂_cons_left_iff.mp h'
      exact .cons (hR _ _ _ hentry hentry') (ih hrest')

/-- A list grows at its end, and then again. -/
theorem grows_trans
    {R : JsonValue → JsonValue → Prop}
    (hR : ∀ e e' e'', R e e' → R e' e'' → R e e'')
    (h : ∃ kept rest, es' = kept ++ rest ∧ List.Forall₂ R es kept)
    (h' : ∃ kept rest, es'' = kept ++ rest ∧ List.Forall₂ R es' kept) :
    ∃ kept rest, es'' = kept ++ rest ∧ List.Forall₂ R es kept := by
  obtain ⟨kept, rest, rfl, hkept⟩ := h
  obtain ⟨kept', rest', rfl, hkept'⟩ := h'
  -- The first entries of what is kept are those that were kept before.
  obtain ⟨front, back, rfl, hfront⟩ := exists_append_of_forall₂ hkept'
  exact ⟨front, back ++ rest', List.append_assoc _ _ _, forall₂_trans hR hkept hfront⟩

theorem KeepsList.trans
    (h : KeepsList es es')
    (h' : KeepsList es' es'') :
    KeepsList es es'' :=
  grows_trans (fun _ _ _ => KeepsEntry.trans) h h'

theorem KeepsRoot.refl
    (root : JsonValue) :
    KeepsRoot root root :=
  Or.inl rfl

theorem KeepsRoot.trans
    (h : KeepsRoot root root')
    (h' : KeepsRoot root' root'') :
    KeepsRoot root root'' := by
  rcases h with rfl | ⟨es, es', rfl, rfl, hes⟩ | ⟨hobject, hobject', hkeys⟩
  · exact h'
  · rcases h' with rfl | ⟨es₁, es'', heq, rfl, hes'⟩ | ⟨hobject, -⟩
    · exact Or.inr (Or.inl ⟨es, es', rfl, rfl, hes⟩)
    · obtain rfl := JsonValue.arr.inj heq
      exact Or.inr (Or.inl ⟨es, es'', rfl, rfl, hes.trans hes'⟩)
    · cases hobject
  · rcases h' with rfl | ⟨es, es', rfl, -⟩ | ⟨-, hobject'', hkeys'⟩
    · exact Or.inr (Or.inr ⟨hobject, hobject', hkeys⟩)
    · cases hobject'
    · refine Or.inr (Or.inr ⟨hobject, hobject'', fun key v hget => ?_⟩)
      obtain ⟨v', hget', hv⟩ := hkeys key v hget
      obtain ⟨v'', hget'', hv'⟩ := hkeys' key v' hget'
      refine ⟨v'', hget'', ?_⟩
      rcases hv with rfl | ⟨es, es', rfl, rfl, hes⟩
      · exact hv'
      · rcases hv' with rfl | ⟨es₁, es'', heq, rfl, hes'⟩
        · exact Or.inr ⟨es, es', rfl, rfl, hes⟩
        · obtain rfl := JsonValue.arr.inj heq
          exact Or.inr ⟨es, es'', rfl, rfl, hes.trans hes'⟩

theorem KeepsText.refl
    (file : Option FileText) :
    KeepsText file file :=
  fun text htext => ⟨text, htext, Or.inl rfl⟩

theorem KeepsText.trans
    (h : KeepsText file file')
    (h' : KeepsText file' file'') :
    KeepsText file file'' := by
  intro text htext
  obtain ⟨text', htext', hkept⟩ := h text htext
  obtain ⟨text'', htext'', hkept'⟩ := h' text' htext'
  refine ⟨text'', htext'', ?_⟩
  rcases hkept with rfl | ⟨root, root', hvalue, hvalue', hroot⟩
  · exact hkept'
  · refine Or.inr ⟨root, ?_⟩
    rcases hkept' with rfl | ⟨root₁, root'', hvalue₁, hvalue'', hroot'⟩
    · exact ⟨root', hvalue, hvalue', hroot⟩
    · obtain rfl := Option.some.inj (hvalue'.symm.trans hvalue₁)
      exact ⟨root'', hvalue, hvalue'', hroot.trans hroot'⟩

theorem OperatorWins.refl
    (files : AutoFiles) :
    OperatorWins files files :=
  ⟨KeepsText.refl _, KeepsText.refl _, fun _ => KeepsText.refl _⟩

theorem OperatorWins.trans
    (h : OperatorWins files files')
    (h' : OperatorWins files' files'') :
    OperatorWins files files'' :=
  ⟨h.config.trans h'.config, h.modules.trans h'.modules,
    fun d => (h.own d).trans (h'.own d)⟩

/-- What is written in place of a value keeps the file if it keeps the value. -/
theorem keepsText_pretty
    (h : ∀ text, file = some text → ∃ root, text.value? = some root ∧
      KeepsRoot root root') :
    KeepsText file (some (.pretty root')) := by
  intro text htext
  obtain ⟨root, hvalue, hroot⟩ := h text htext
  exact ⟨_, rfl, Or.inr ⟨root, root', hvalue, rfl, hroot⟩⟩

end Keeping

/-! ## What is kept where the files have the right form -/

section Kept

variable {env : AutoEnv} {m n : DiscoveredModule} {l registry : List DiscoveredModule}
variable {files files' : AutoFiles} {log : List String} {file : Option FileText}
variable {root root' : JsonValue} {key : String} {o o' : Option JsonValue}

/-- A value is kept where the entry that is refreshed has no other priority. -/
theorem GrownValue.keeps
    (h : GrownValue m key o o')
    (hauto : key ∈ orderingKeys → ∀ es, o = some (.arr es) →
      UsesAutoPriority m.name es) :
    ∀ v, o = some v → ∃ v', o' = some v' ∧
      (v = v' ∨ ∃ es es', v = .arr es ∧ v' = .arr es' ∧ KeepsList es es') := by
  cases h with
  | same => exact fun v hv => ⟨v, hv, Or.inl rfl⟩
  | refreshed hkey es =>
      intro v hv
      obtain rfl := Option.some.inj hv
      exact ⟨_, rfl, Or.inr ⟨es, refreshEntry m.name es, rfl, rfl, _, [],
        (List.append_nil _).symm, keepsEntry_refresh (hauto hkey es rfl)⟩⟩
  | pushed _ es =>
      intro v hv
      obtain rfl := Option.some.inj hv
      exact ⟨_, rfl, Or.inr ⟨es, es ++ [orderingEntry m], rfl, rfl, es, _, rfl,
        forall₂_keepsEntry_refl⟩⟩
  | opened => exact fun v hv => nomatch hv

theorem GrownValue.usesAutoPriority
    {name : String}
    (h : GrownValue m key o o')
    (hauto : ∀ es, o = some (.arr es) → UsesAutoPriority name es) :
    ∀ es, o' = some (.arr es) → UsesAutoPriority name es := by
  cases h with
  | same => exact hauto
  | refreshed _ es =>
      intro es' hes'
      obtain rfl := JsonValue.arr.inj (Option.some.inj hes')
      exact usesAutoPriority_refresh (hauto es rfl)
  | pushed _ es =>
      intro es' hes'
      obtain rfl := JsonValue.arr.inj (Option.some.inj hes')
      exact (hauto es rfl).append get_priority_orderingEntry
  | opened =>
      intro es' hes'
      obtain rfl := JsonValue.arr.inj (Option.some.inj hes')
      exact (atAutoPriority_nil.append get_priority_orderingEntry).usesAutoPriority

/-- The settings place every module at the priority that it is given. -/
def PlacesAtAutoPriority (registry : List DiscoveredModule) (root : JsonValue) : Prop :=
  ∀ m ∈ registry, ∀ key ∈ orderingKeys, ∀ es, root.get key = some (.arr es) →
    UsesAutoPriority m.name es

theorem settingsOf_eq
    {text : FileText}
    (h : text.value? = some root) :
    settingsOf (some text) = root := by
  rw [settingsOf, Option.bind_some, h, Option.getD_some]

theorem WellKept.settings
    (h : WellKept registry files) :
    (settingsOf files.config).isObject = true ∧
      PlacesAtAutoPriority registry (settingsOf files.config) := by
  cases hconfig : files.config with
  | none => exact ⟨rfl, fun _ _ _ _ _ hget => nomatch hget⟩
  | some text =>
      obtain ⟨root, hvalue, hobject, hplaces⟩ := h.config text hconfig
      rw [settingsOf_eq hvalue]
      exact ⟨hobject, hplaces⟩

theorem registryOf_eq
    {text : FileText} {es : List JsonValue}
    (h : text.value? = some (.arr es)) :
    registryOf (some text) = es := by
  rw [registryOf, Option.bind_some, h]
  rfl

theorem keepsText_registerModule
    (h : HoldsArray file) :
    KeepsText file (registerModule env m file).2 := by
  unfold registerModule
  split
  · exact KeepsText.refl file
  · refine keepsText_pretty fun text htext => ?_
    obtain ⟨es, hvalue⟩ := h text htext
    rw [htext, registryOf_eq hvalue]
    exact ⟨.arr es, hvalue, Or.inr (Or.inl ⟨es, es ++ [registryEntry env m], rfl, rfl,
      es, _, rfl, forall₂_keepsEntry_refl⟩)⟩

theorem holdsArray_registerModule
    (h : HoldsArray file) :
    HoldsArray (registerModule env m file).2 := by
  unfold registerModule
  split
  · exact h
  · intro text htext
    obtain rfl := Option.some.inj htext
    exact ⟨_, rfl⟩

theorem keepsText_writeConnectionConfig
    (h : HoldsJson file) :
    KeepsText file (writeConnectionConfig env m file).2 := by
  unfold writeConnectionConfig
  dsimp only
  split
  · rename_i hmissing
    refine keepsText_pretty fun text htext => ?_
    obtain ⟨root, hvalue⟩ := h text htext
    rw [htext, settingsOf_eq hvalue] at hmissing ⊢
    exact ⟨root, hvalue, Or.inr (Or.inr ⟨hmissing.1,
      isObject_fillMissing.trans hmissing.1,
      fun key v hget => ⟨v, get_fillMissing hget, Or.inl rfl⟩⟩)⟩
  · exact KeepsText.refl file

theorem holdsJson_writeConnectionConfig
    (h : HoldsJson file) :
    HoldsJson (writeConnectionConfig env m file).2 := by
  unfold writeConnectionConfig
  dsimp only
  split
  · intro text htext
    obtain rfl := Option.some.inj htext
    exact ⟨_, rfl⟩
  · exact h

/-- The steps of a module on files of the right form. -/
theorem WellKept.step
    (h : WellKept registry files)
    (env : AutoEnv)
    (hm : m ∈ registry) :
    ∃ log files', configureModule env files m = some (log, files') ∧
      OperatorWins files files' ∧ WellKept registry files' := by
  obtain ⟨hobject, hplaces⟩ := h.settings
  obtain ⟨msg, root', hstep, hgrown, -⟩ := orderModule_of_isObject m hobject
  have hordered : addToOrdering m files.config = some (msg, .pretty root') := by
    rw [addToOrdering, hstep]
    rfl
  have hown := h.own m hm
  refine ⟨_, _, by rw [configureModule, hordered, Option.map_some],
    ⟨?_, keepsText_registerModule h.modules, fun d => ?_⟩,
    ⟨?_, holdsArray_registerModule h.modules, fun n hn => ?_⟩⟩
  · refine keepsText_pretty fun text htext => ?_
    obtain ⟨root, hvalue, -, -⟩ := h.config text htext
    have hread : settingsOf files.config = root := by rw [htext, settingsOf_eq hvalue]
    rw [hread] at hobject hplaces hgrown
    exact ⟨root, hvalue, Or.inr (Or.inr ⟨hobject, hgrown.1, fun key v hget =>
      (hgrown.2 key).keeps (hplaces m hm key) v hget⟩)⟩
  · dsimp only
    by_cases hdirectory : d = m.directory
    · rw [hdirectory, Function.update_self]
      exact keepsText_writeConnectionConfig hown
    · rw [Function.update_of_ne hdirectory]
      exact KeepsText.refl _
  · intro text htext
    obtain rfl := Option.some.inj htext
    exact ⟨root', rfl, hgrown.1, fun n hn key hkey =>
      (hgrown.2 key).usesAutoPriority (hplaces n hn key hkey)⟩
  · dsimp only
    by_cases hdirectory : n.directory = m.directory
    · rw [hdirectory, Function.update_self]
      exact holdsJson_writeConnectionConfig hown
    · rw [Function.update_of_ne hdirectory]
      exact h.own n hn

/-- A pass over files of the right form ends and keeps them. -/
theorem WellKept.run
    (h : WellKept registry files)
    (env : AutoEnv)
    (hl : ∀ m ∈ l, m ∈ registry) :
    ∃ log files', configureModules env l files = some (log, files') ∧
      OperatorWins files files' := by
  induction l generalizing files with
  | nil => exact ⟨[], files, rfl, OperatorWins.refl files⟩
  | cons m l ih =>
      obtain ⟨log₁, files₁, hstep, hwins₁, hkept₁⟩ := h.step env (hl m List.mem_cons_self)
      obtain ⟨log₂, files₂, hrun, hwins₂⟩ :=
        ih hkept₁ fun n hn => hl n (List.mem_cons_of_mem _ hn)
      refine ⟨log₁ ++ log₂, files₂, ?_, hwins₁.trans hwins₂⟩
      rw [configureModules, hstep, Option.bind_some, hrun, Option.map_some]

end Kept

/-! ## What is refreshed where they are not -/

section Refreshed

variable {env : AutoEnv} {m : DiscoveredModule} {l registry : List DiscoveredModule}
variable {files files' files'' : AutoFiles} {log : List String}
variable {root root' root'' : JsonValue} {key : String} {o o' : Option JsonValue}

theorem GrownValue.refreshes
    (h : GrownValue m key o o')
    (hm : m ∈ registry) :
    ∀ v, o = some v → ∃ v', o' = some v' ∧ (v' = v ∨ key ∈ orderingKeys ∧
      ∃ es kept rest, v = .arr es ∧ v' = .arr (kept ++ rest) ∧
        List.Forall₂ (RefreshedEntry registry) es kept) := by
  cases h with
  | same => exact fun v hv => ⟨v, hv, Or.inl rfl⟩
  | refreshed hkey es =>
      intro v hv
      obtain rfl := Option.some.inj hv
      exact ⟨_, rfl, Or.inr ⟨hkey, es, refreshEntry m.name es, [], rfl,
        by rw [List.append_nil], refreshedEntry_refresh hm⟩⟩
  | pushed hkey es =>
      intro v hv
      obtain rfl := Option.some.inj hv
      exact ⟨_, rfl, Or.inr ⟨hkey, es, es, [orderingEntry m], rfl, rfl,
        List.forall₂_same.mpr fun _ _ => Or.inl rfl⟩⟩
  | opened => exact fun v hv => nomatch hv

theorem RefreshedRoot.refl
    (hobject : root.isObject = true) :
    RefreshedRoot registry root root :=
  ⟨hobject, fun _ v hget => ⟨v, hget, Or.inl rfl⟩⟩

theorem RefreshedRoot.trans
    (h : RefreshedRoot registry root root')
    (h' : RefreshedRoot registry root' root'') :
    RefreshedRoot registry root root'' := by
  refine ⟨h'.1, fun key v hget => ?_⟩
  obtain ⟨v', hget', hv⟩ := h.2 key v hget
  obtain ⟨v'', hget'', hv'⟩ := h'.2 key v' hget'
  refine ⟨v'', hget'', ?_⟩
  rcases hv with rfl | ⟨hkey, es, kept, rest, rfl, rfl, hkept⟩
  · exact hv'
  · rcases hv' with rfl | ⟨-, es', kept', rest', heq, rfl, hkept'⟩
    · exact Or.inr ⟨hkey, es, kept, rest, rfl, rfl, hkept⟩
    · obtain rfl := JsonValue.arr.inj heq
      obtain ⟨front, back, hfront, hentries⟩ :=
        grows_trans (R := RefreshedEntry registry) (fun _ _ _ => RefreshedEntry.trans)
          ⟨kept, rest, rfl, hkept⟩ ⟨kept', rest', rfl, hkept'⟩
      exact Or.inr ⟨hkey, es, front, back, rfl, by rw [hfront], hentries⟩

theorem RefreshesOnly.refl
    (files : AutoFiles) :
    RefreshesOnly registry files files :=
  ⟨fun text root htext hvalue hobject =>
      ⟨text, root, htext, hvalue, RefreshedRoot.refl hobject⟩,
    fun _ => KeepsText.refl _, fun _ _ => KeepsText.refl _⟩

theorem RefreshesOnly.trans
    (h : RefreshesOnly registry files files')
    (h' : RefreshesOnly registry files' files'')
    (harray : HoldsArray files.modules → HoldsArray files'.modules)
    (hjson : ∀ d, HoldsJson (files.own d) → HoldsJson (files'.own d)) :
    RefreshesOnly registry files files'' where
  config text root htext hvalue hobject := by
    obtain ⟨text', root', htext', hvalue', hroot⟩ :=
      h.config text root htext hvalue hobject
    obtain ⟨text'', root'', htext'', hvalue'', hroot'⟩ :=
      h'.config text' root' htext' hvalue' hroot.1
    exact ⟨text'', root'', htext'', hvalue'', hroot.trans hroot'⟩
  modules hmodules := (h.modules hmodules).trans (h'.modules (harray hmodules))
  own d hown := (h.own d hown).trans (h'.own d (hjson d hown))

/-- The steps of a module on any files that it does not panic on. -/
theorem refreshesOnly_step
    (h : configureModule env files m = some (log, files'))
    (hm : m ∈ registry) :
    RefreshesOnly registry files files' ∧
      (HoldsArray files.modules → HoldsArray files'.modules) ∧
      ∀ d, HoldsJson (files.own d) → HoldsJson (files'.own d) := by
  obtain ⟨msg, root', hstep, rfl⟩ := configureModule_eq_some h
  refine ⟨⟨fun text root htext hvalue hobject => ?_, keepsText_registerModule,
    fun d hown => ?_⟩, holdsArray_registerModule, fun d hown => ?_⟩
  · rw [htext, settingsOf_eq hvalue] at hstep
    have hgrown := (orderModule_eq_some hstep).2 hobject
    exact ⟨_, root', rfl, rfl, hgrown.1, fun key v hget =>
      (hgrown.2 key).refreshes hm v hget⟩
  · dsimp only
    by_cases hdirectory : d = m.directory
    · subst hdirectory
      rw [Function.update_self]
      exact keepsText_writeConnectionConfig hown
    · rw [Function.update_of_ne hdirectory]
      exact KeepsText.refl _
  · dsimp only
    by_cases hdirectory : d = m.directory
    · subst hdirectory
      rw [Function.update_self]
      exact holdsJson_writeConnectionConfig hown
    · rw [Function.update_of_ne hdirectory]
      exact hown

theorem refreshesOnly_run
    (h : configureModules env l files = some (log, files'))
    (hl : ∀ m ∈ l, m ∈ registry) :
    RefreshesOnly registry files files' := by
  induction l generalizing files log with
  | nil =>
      obtain rfl := (Prod.mk.inj (Option.some.inj h)).2
      exact RefreshesOnly.refl files
  | cons m l ih =>
      obtain ⟨⟨log₁, files₁⟩, hstep, hrest⟩ := Option.bind_eq_some_iff.mp h
      obtain ⟨⟨log₂, files₂⟩, hrun, heq⟩ := Option.map_eq_some_iff.mp hrest
      obtain rfl := (Prod.mk.inj heq).2
      obtain ⟨honly, harray, hjson⟩ :=
        refreshesOnly_step hstep (hl m List.mem_cons_self)
      exact honly.trans (ih hrun fun n hn => hl n (List.mem_cons_of_mem _ hn))
        harray hjson

/-- The settings can be indexed: they are missing, no JSON, null or an object. -/
def Indexable (file : Option FileText) : Prop :=
  (settingsOf file).isObject = true ∨ settingsOf file = .null

/-- A pass on settings that can be indexed ends. -/
theorem exists_run
    (env : AutoEnv)
    (l : List DiscoveredModule)
    (h : Indexable files.config) :
    ∃ log files', configureModules env l files = some (log, files') := by
  induction l generalizing files with
  | nil => exact ⟨[], files, rfl⟩
  | cons m l ih =>
      obtain ⟨msg, root', hordered, hobject⟩ : ∃ msg root',
          orderModule m (settingsOf files.config) = some (msg, root') ∧
            root'.isObject = true := by
        rcases h with hobject | hnull
        · obtain ⟨msg, root', hstep, hgrown, -⟩ := orderModule_of_isObject m hobject
          exact ⟨msg, root', hstep, hgrown.1⟩
        · obtain ⟨msg, root', hstep, hgrown, -⟩ :=
            orderModule_of_isObject m (show (JsonValue.obj []).isObject = true from rfl)
          exact ⟨msg, root', by rw [hnull, orderModule_null, hstep], hgrown.1⟩
      have hwritten : addToOrdering m files.config = some (msg, .pretty root') := by
        rw [addToOrdering, hordered]
        rfl
      obtain ⟨r, hstep, hconfig⟩ : ∃ r, configureModule env files m = some r ∧
          r.2.config = some (.pretty root') :=
        ⟨_, by rw [configureModule, hwritten, Option.map_some], rfl⟩
      have hindexable : Indexable r.2.config := by
        rw [hconfig]
        exact Or.inl hobject
      obtain ⟨log, files', hrun⟩ := ih hindexable
      refine ⟨r.1 ++ log, files', ?_⟩
      rw [configureModules, hstep, Option.bind_some, hrun, Option.map_some]

end Refreshed

/-! ## What a pass that keeps the files has found -/

section Found

variable {env : AutoEnv} {m n : DiscoveredModule} {l registry : List DiscoveredModule}
variable {files files' : AutoFiles} {log : List String} {file : Option FileText}
variable {root root' root'' : JsonValue}

/-- The lists keep their names, and get more at their end. -/
def KeepsNames (root root' : JsonValue) : Prop :=
  ∀ key es, root.get key = some (.arr es) → ∃ es', root'.get key = some (.arr es') ∧
    ∃ kept rest, es' = kept ++ rest ∧ List.Forall₂ SameName es kept

theorem Grown.keepsNames
    (h : Grown m root root') :
    KeepsNames root root' := by
  intro key es hget
  have hvalue := h.2 key
  rw [hget] at hvalue
  obtain ⟨kept, rest, hget', hnames⟩ := hvalue.names
  exact ⟨_, hget', kept, rest, rfl, hnames⟩

theorem KeepsNames.trans
    (h : KeepsNames root root')
    (h' : KeepsNames root' root'') :
    KeepsNames root root'' := by
  intro key es hget
  obtain ⟨es', hget', hnames⟩ := h key es hget
  obtain ⟨es'', hget'', hnames'⟩ := h' key es' hget'
  refine ⟨es'', hget'', grows_trans (fun e e' e'' he he' n => ?_) hnames hnames'⟩
  exact (he' n).trans (he n)

/-- A pass over settings that are an object keeps the names of its lists. -/
theorem keepsNames_run
    (h : configureModules env l files = some (log, files'))
    (hobject : (settingsOf files.config).isObject = true) :
    KeepsNames (settingsOf files.config) (settingsOf files'.config) := by
  induction l generalizing files log with
  | nil =>
      obtain rfl := (Prod.mk.inj (Option.some.inj h)).2
      exact fun key es hget =>
        ⟨es, hget, es, [], (List.append_nil es).symm,
          List.forall₂_same.mpr fun _ _ _ => rfl⟩
  | cons m l ih =>
      obtain ⟨⟨log₁, files₁⟩, hstep, hrest⟩ := Option.bind_eq_some_iff.mp h
      obtain ⟨⟨log₂, files₂⟩, hrun, heq⟩ := Option.map_eq_some_iff.mp hrest
      obtain rfl := (Prod.mk.inj heq).2
      obtain ⟨msg, root, hordered, rfl⟩ := configureModule_eq_some hstep
      have hgrown := (orderModule_eq_some hordered).2 hobject
      exact hgrown.keepsNames.trans (ih hrun hgrown.1)

/-- An object is kept by objects only, and an array by arrays. -/
theorem KeepsRoot.isObject_eq
    (h : KeepsRoot root root') :
    root'.isObject = root.isObject := by
  rcases h with rfl | ⟨es, es', rfl, rfl, -⟩ | ⟨hobject, hobject', -⟩
  · rfl
  · rfl
  · rw [hobject, hobject']

/-- The settings that a pass has kept place the modules at the priority that they
are given. -/
theorem placesAtAutoPriority_of_kept
    (hnames : KeepsNames root root')
    (hkept : KeepsRoot root root')
    (hsettled : ∀ m ∈ l, SettledRoot m root') :
    PlacesAtAutoPriority l root := by
  intro m hm key hkey es hget
  obtain ⟨es', hget', kept, rest, rfl, hsame⟩ := hnames key es hget
  have hpriority := (hsettled m hm).priorities key hkey _ hget'
  have hlist : KeepsList es (kept ++ rest) := by
    rcases hkept with rfl | ⟨es₁, es₂, rfl, -⟩ | ⟨-, -, hkeys⟩
    · rw [hget] at hget'
      rw [← JsonValue.arr.inj (Option.some.inj hget')]
      exact KeepsList.refl es
    · cases hget
    · obtain ⟨v', hv', heq | ⟨es₁, es₂, h₁, rfl, hes⟩⟩ := hkeys key _ hget
      · rw [← heq, hget'] at hv'
        rw [JsonValue.arr.inj (Option.some.inj hv')]
        exact KeepsList.refl es
      · obtain rfl := JsonValue.arr.inj h₁
        rw [hget'] at hv'
        rwa [JsonValue.arr.inj (Option.some.inj hv')]
  obtain ⟨kept', rest', heq, hentries⟩ := hlist
  -- What is kept and what keeps its name is the same part of the list.
  have hlength : kept.length = kept'.length :=
    hsame.length_eq.symm.trans hentries.length_eq
  obtain ⟨rfl, -⟩ := List.append_inj heq hlength
  exact usesAutoPriority_of_kept hsame hentries hpriority

/-- A file that is kept by a value had one. -/
theorem KeepsText.value
    {text text' : FileText}
    (h : KeepsText (some text) (some text'))
    (hvalue' : text'.value? = some root') :
    ∃ root, text.value? = some root ∧ KeepsRoot root root' := by
  obtain ⟨text₁, htext₁, hkept⟩ := h text rfl
  obtain rfl := Option.some.inj htext₁
  rcases hkept with rfl | ⟨root, root₁, hvalue, hvalue₁, hkept⟩
  · exact ⟨root', hvalue', KeepsRoot.refl root'⟩
  · obtain rfl := Option.some.inj (hvalue'.symm.trans hvalue₁)
    exact ⟨root, hvalue, hkept⟩

/-- A registry that has an entry is an array. -/
theorem exists_arr_of_any
    {name : String}
    (h : (registryOf file).any (isNamed name) = true) :
    ∃ text es, file = some text ∧ text.value? = some (.arr es) := by
  cases file with
  | none => cases h
  | some text =>
      cases hvalue : text.value? with
      | none =>
          rw [registryOf, Option.bind_some, hvalue] at h
          cases h
      | some root =>
          cases root with
          | arr es => exact ⟨text, es, rfl, hvalue⟩
          | _ =>
              rw [registryOf, Option.bind_some, hvalue] at h
              cases h

/-- A file that has all keys to connect is JSON. -/
theorem SettledOwn.value
    {text : FileText}
    (h : SettledOwn (some text)) :
    ∃ root, text.value? = some root := by
  cases hvalue : text.value? with
  | some root => exact ⟨root, rfl⟩
  | none =>
      have hread : settingsOf (some text) = .obj [] := by
        rw [settingsOf, Option.bind_some, hvalue]
        rfl
      have hsome := h (by rw [hread]; rfl) "ip" (by simp [connectionKeys])
      rw [hread] at hsome
      cases hsome

/-- A pass that ends and keeps the files has found them of the right form. -/
theorem wellKept_of_run
    (h : configureModules env l files = some (log, files'))
    (hwins : OperatorWins files files')
    (hl : l ≠ []) :
    WellKept l files := by
  have hsettled : ∀ m ∈ l, SettledFiles m files' := fun m hm => settled_run h (Or.inl hm)
  obtain ⟨first, hfirst⟩ := List.exists_mem_of_ne_nil l hl
  obtain ⟨root', hconfig', hroot'⟩ := (hsettled first hfirst).config
  have hroots : ∀ m ∈ l, SettledRoot m root' := by
    intro m hm
    obtain ⟨root₁, hconfig₁, hroot₁⟩ := (hsettled m hm).config
    rw [hconfig'] at hconfig₁
    obtain ⟨-, rfl⟩ := FileText.json.inj (Option.some.inj hconfig₁)
    exact hroot₁
  refine ⟨fun text htext => ?_, fun text htext => ?_, fun m hm text htext => ?_⟩
  · have hconfig := hwins.config
    rw [htext, hconfig'] at hconfig
    obtain ⟨root, hvalue, hkept⟩ := hconfig.value rfl
    have hobject : root.isObject = true := hkept.isObject_eq ▸ hroot'.isObject
    have hnames := keepsNames_run h
    rw [htext, settingsOf_eq hvalue, hconfig', settingsOf_eq rfl] at hnames
    exact ⟨root, hvalue, hobject,
      placesAtAutoPriority_of_kept (hnames hobject) hkept hroots⟩
  · have hmodules := hwins.modules
    obtain ⟨text', es', htext', hvalue'⟩ :=
      exists_arr_of_any (hsettled first hfirst).modules
    rw [htext, htext'] at hmodules
    obtain ⟨root, hvalue, rfl | ⟨es, es₁, rfl, -⟩ | ⟨-, hobject, -⟩⟩ :=
      hmodules.value hvalue'
    · exact ⟨es', hvalue⟩
    · exact ⟨es, hvalue⟩
    · cases hobject
  · obtain ⟨text', htext', rfl | ⟨root, root', hvalue, -⟩⟩ :=
      hwins.own m.directory text htext
    · have hown := (hsettled m hm).own
      rw [htext'] at hown
      exact hown.value
    · exact ⟨root, hvalue⟩

end Found

section Main

variable {env : AutoEnv} {registry : List DiscoveredModule} {files : AutoFiles}

theorem mem_sortedByName
    {m : DiscoveredModule} :
    m ∈ registry.mergeSort (fun a b => decide (a.name ≤ b.name)) ↔ m ∈ registry :=
  (List.mergeSort_perm registry _).mem_iff

/-- The order in which the modules are gone through does not matter. -/
theorem WellKept.of_mem
    {l : List DiscoveredModule}
    (h : WellKept l files)
    (hl : ∀ m ∈ registry, m ∈ l) :
    WellKept registry files where
  config text htext := by
    obtain ⟨root, hvalue, hobject, hplaces⟩ := h.config text htext
    exact ⟨root, hvalue, hobject, fun m hm => hplaces m (hl m hm)⟩
  modules := h.modules
  own m hm := h.own m (hl m hm)

/-- Unless the settings are JSON that cannot be indexed, the pass ends, refreshes
priorities only, and does nothing a second time. -/
theorem autoConfigure_refreshesOnly
    (env : AutoEnv)
    (registry : List DiscoveredModule)
    (files : AutoFiles)
    (h : Indexable files.config) :
    ∃ log files', autoConfigure env registry files = some (log, files') ∧
      RefreshesOnly registry files files' ∧
      ∀ env', ∃ log', autoConfigure env' registry files' = some (log', files') := by
  obtain ⟨log, files', hrun⟩ :=
    exists_run env (registry.mergeSort fun a b => decide (a.name ≤ b.name)) h
  refine ⟨log, files', hrun, refreshesOnly_run hrun fun m => mem_sortedByName.mp,
    fun env' => ?_⟩
  exact configureModules_of_settled fun m hm => settled_run hrun (Or.inl hm)

/-- The pass ends, keeps what the operator has and does nothing a second time
exactly when there is no module or the files are of the right form, the settings
placing the modules at the priority that the pass gives. -/
theorem autoConfigures_iff_wellKept
    (env : AutoEnv)
    (registry : List DiscoveredModule)
    (files : AutoFiles) :
    AutoConfigures env registry files ↔ registry = [] ∨ WellKept registry files := by
  constructor
  · rintro ⟨log, files', hrun, hwins, -⟩
    refine or_iff_not_imp_left.mpr fun hne => ?_
    have hsorted : registry.mergeSort (fun a b => decide (a.name ≤ b.name)) ≠ [] := by
      intro hnil
      refine hne (List.eq_nil_iff_forall_not_mem.mpr fun m hm => ?_)
      rw [← mem_sortedByName, hnil] at hm
      exact List.not_mem_nil hm
    exact (wellKept_of_run hrun hwins hsorted).of_mem fun m => mem_sortedByName.mpr
  · intro h
    obtain ⟨log, files', hrun, hwins⟩ : ∃ log files',
        autoConfigure env registry files = some (log, files') ∧
          OperatorWins files files' := by
      rcases h with rfl | h
      · refine ⟨[], files, ?_, OperatorWins.refl files⟩
        rw [autoConfigure, List.mergeSort_nil]
        rfl
      · exact h.run env fun m => mem_sortedByName.mp
    refine ⟨log, files', hrun, hwins, fun env' => ?_⟩
    exact configureModules_of_settled fun m hm => settled_run hrun (Or.inl hm)

end Main

/-! ## A priority that the operator has set -/

def rankedModule : DiscoveredModule := ⟨"chat", "input", "modules/chat"⟩

/-- Settings that place the module at the priority. -/
def rankedSettings (priority : Int) : JsonValue :=
  .obj [("inputs", .arr [.obj [("name", .str "chat"),
    ("priority", .num (.int priority))]])]

/-- The operator has given the module the priority 5. -/
def rankedFiles : AutoFiles where
  config := some (.pretty (rankedSettings 5))
  modules := none
  own := fun _ => none

theorem orderModule_ranked :
    orderModule rankedModule (rankedSettings 5) =
      some ("already placed in pipeline ordering — priority refreshed",
        rankedSettings 100) := rfl

theorem not_keepsRoot_ranked :
    ¬ KeepsRoot (rankedSettings 5) (rankedSettings 100) := by
  rintro (heq | ⟨es, es', hes, -⟩ | ⟨-, -, hkeys⟩)
  · simp [rankedSettings] at heq
  · cases hes
  · obtain ⟨v', hv', heq | ⟨es, es', hes, hes', kept, rest, hlist, hkept⟩⟩ :=
      hkeys "inputs" _ rfl
    · obtain rfl := Option.some.inj hv'
      simp at heq
    · obtain rfl := Option.some.inj hv'
      obtain rfl := JsonValue.arr.inj hes
      obtain rfl := JsonValue.arr.inj hes'
      obtain ⟨entry, none', hentry, -, rfl⟩ := List.forall₂_cons_left_iff.mp hkept
      obtain ⟨rfl, -⟩ := List.cons.inj hlist
      rcases hentry with heq | ⟨-, hfields⟩
      · simp at heq
      · have hpriority := hfields "priority" (.num (.int 5)) rfl
        simp [JsonValue.get] at hpriority

theorem refreshesOnly_ranked :
    ∃ log files', autoConfigure ⟨9734, 987400, id⟩ [rankedModule] rankedFiles =
        some (log, files') ∧
      RefreshesOnly [rankedModule] rankedFiles files' ∧
      ∀ env', ∃ log', autoConfigure env' [rankedModule] files' = some (log', files') :=
  autoConfigure_refreshesOnly _ _ _ (Or.inl rfl)

/-- After the pass the module has the priority 100. -/
theorem not_autoConfigures_ranked :
    ¬ AutoConfigures ⟨9734, 987400, id⟩ [rankedModule] rankedFiles := by
  rintro ⟨log, files', hrun, hwins, -⟩
  rw [autoConfigure, List.mergeSort_singleton, configureModules] at hrun
  obtain ⟨⟨log₁, files₁⟩, hstep, hrest⟩ := Option.bind_eq_some_iff.mp hrun
  obtain ⟨msg, root, hordered, rfl⟩ := configureModule_eq_some hstep
  rw [show orderModule rankedModule (settingsOf rankedFiles.config) = _ from
    orderModule_ranked] at hordered
  obtain ⟨-, rfl⟩ := Prod.mk.inj (Option.some.inj hordered)
  obtain rfl := (Prod.mk.inj (Option.some.inj hrest)).2
  obtain ⟨root, hvalue, hkept⟩ := hwins.config.value rfl
  obtain rfl := Option.some.inj hvalue
  exact not_keepsRoot_ranked hkept

end CockatielEngine
