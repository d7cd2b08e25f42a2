import NetworkLoading.Config.Override
import NetworkLoading.Proofs.Speeds

/-!
# What overrides change

Every setting has one key and one place in the settings, which is all that an override with this key
changes. So only the last override of each setting counts, and the order of overrides with different
keys does not matter. Whether an override is valid depends on its own texts only.
-/

namespace NetworkLoading

namespace Setting

/-! ## Keys -/

/-- The key of a setting. -/
def key : Setting → String
  | startTime => "simulation.start_time"
  | endTime => "simulation.end_time"
  | timeStep => "simulation.time_step"
  | progressInterval => "simulation.progress_interval"
  | stopWhenEmpty => "simulation.stop_when_empty"
  | numParts => "partitioning.num_parts"
  | method => "partitioning.method"
  | modes => "multimodal.modes"
  | outputDir => "output.output_dir"
  | logging => "output.logging"
  | gridSize => "scenario.grid_size"
  | linkLength => "scenario.link_length"
  | linkFreespeed => "scenario.link_freespeed"
  | numAgents => "scenario.num_agents"
  | departureWindow => "scenario.departure_window"
  | seed => "scenario.seed"
  | speed mode => speedsKey ++ mode

theorem isPrefixOf?_eq_some {cs ds rest : List Char} :
    cs.isPrefixOf? ds = some rest ↔ ds = cs ++ rest := by
  induction cs generalizing ds with
  | nil => simp [List.isPrefixOf?]
  | cons c cs ih =>
    cases ds with
    | nil => simp [List.isPrefixOf?]
    | cons d ds =>
      by_cases he : c = d
      · simp [List.isPrefixOf?, he, ih]
      · simp [List.isPrefixOf?, he, Ne.symm he]

theorem ofKey?_speed (mode : String) : ofKey? (speedsKey ++ mode) = some (.speed mode) := by
  have hmode : speedsKey.toList.isPrefixOf? (speedsKey ++ mode).toList = some mode.toList :=
    isPrefixOf?_eq_some.2 String.toList_append
  unfold ofKey?
  split
  all_goals first
    | rename_i he
      rw [he] at hmode
      cases hmode
    | rw [hmode, Option.map_some, String.ofList_toList]

/-- A key names the setting whose key it is. -/
theorem ofKey?_eq_some {text : String} {setting : Setting} :
    ofKey? text = some setting ↔ text = setting.key := by
  constructor
  · intro h
    unfold ofKey? at h
    split at h
    all_goals first
      | cases h
        rfl
      | obtain ⟨mode, hmode, rfl⟩ := Option.map_eq_some_iff.1 h
        rw [key, ← String.ofList_toList (s := text), isPrefixOf?_eq_some.1 hmode,
          String.ofList_append, String.ofList_toList]
  · rintro rfl
    cases setting with
    | speed mode => exact ofKey?_speed mode
    | _ => rfl

theorem key_inj {a b : Setting} : a.key = b.key ↔ a = b := by
  refine ⟨fun h => ?_, fun h => h ▸ rfl⟩
  exact Option.some.inj ((ofKey?_eq_some.2 rfl).symm.trans (ofKey?_eq_some.2 h))

/-! ## Values -/

/-- What a setting can be set to. -/
def Value : Setting → Type
  | startTime | endTime | timeStep | progressInterval | numParts | gridSize | numAgents
  | departureWindow => UInt32
  | stopWhenEmpty => Bool
  | method => PartitionMethod
  | modes => List String
  | outputDir => String
  | logging => Config.Logging
  | linkLength | linkFreespeed | speed _ => Float
  | seed => UInt64

/-- The value that a text stands for. -/
def parse? : (setting : Setting) → String → Option setting.Value
  | startTime, s | endTime, s | timeStep, s | progressInterval, s | numParts, s | gridSize, s
  | numAgents, s | departureWindow, s => Decimal.uint32? s
  | stopWhenEmpty, s => bool? s
  | method, s => method? s
  | modes, s => some (names s)
  | outputDir, s => some s
  | logging, s => logging? s
  | linkLength, s | linkFreespeed, s | speed _, s => Decimal.float? s
  | seed, s => Decimal.uint64? s

/-- What the settings hold in the place of a setting. Only a speed can be missing. -/
def get? : (setting : Setting) → Config → Option setting.Value
  | startTime, c => some c.simulation.startTime
  | endTime, c => some c.simulation.endTime
  | timeStep, c => some c.simulation.timeStep
  | progressInterval, c => some c.simulation.progressInterval
  | stopWhenEmpty, c => some c.simulation.stopWhenEmpty
  | numParts, c => some c.partitioning.numParts
  | method, c => some c.partitioning.method
  | modes, c => some c.multimodal.modes
  | outputDir, c => some c.output.outputDir
  | logging, c => some c.output.logging
  | gridSize, c => some c.scenario.gridSize
  | linkLength, c => some c.scenario.linkLength
  | linkFreespeed, c => some c.scenario.linkFreespeed
  | numAgents, c => some c.scenario.numAgents
  | departureWindow, c => some c.scenario.departureWindow
  | seed, c => some c.scenario.seed
  | speed mode, c => c.multimodal.speeds.get? mode

/-- Settings are what they hold in all of their places. -/
theorem ext_get? {c d : Config} (h : ∀ setting, get? setting c = get? setting d) : c = d := by
  obtain ⟨⟨startTime, endTime, timeStep, progressInterval, stopWhenEmpty⟩, ⟨numParts, method⟩,
    ⟨modes, speeds⟩, ⟨outputDir, logging⟩,
    ⟨gridSize, linkLength, linkFreespeed, numAgents, departureWindow, seed⟩⟩ := c
  obtain ⟨⟨startTime', endTime', timeStep', progressInterval', stopWhenEmpty'⟩,
    ⟨numParts', method'⟩, ⟨modes', speeds'⟩, ⟨outputDir', logging'⟩,
    ⟨gridSize', linkLength', linkFreespeed', numAgents', departureWindow', seed'⟩⟩ := d
  obtain rfl : startTime = startTime' := Option.some.inj (h .startTime)
  obtain rfl : endTime = endTime' := Option.some.inj (h .endTime)
  obtain rfl : timeStep = timeStep' := Option.some.inj (h .timeStep)
  obtain rfl : progressInterval = progressInterval' := Option.some.inj (h .progressInterval)
  obtain rfl : stopWhenEmpty = stopWhenEmpty' := Option.some.inj (h .stopWhenEmpty)
  obtain rfl : numParts = numParts' := Option.some.inj (h .numParts)
  obtain rfl : method = method' := Option.some.inj (h .method)
  obtain rfl : modes = modes' := Option.some.inj (h .modes)
  obtain rfl : speeds = speeds' := Speeds.ext_get? fun mode => h (.speed mode)
  obtain rfl : outputDir = outputDir' := Option.some.inj (h .outputDir)
  obtain rfl : logging = logging' := Option.some.inj (h .logging)
  obtain rfl : gridSize = gridSize' := Option.some.inj (h .gridSize)
  obtain rfl : linkLength = linkLength' := Option.some.inj (h .linkLength)
  obtain rfl : linkFreespeed = linkFreespeed' := Option.some.inj (h .linkFreespeed)
  obtain rfl : numAgents = numAgents' := Option.some.inj (h .numAgents)
  obtain rfl : departureWindow = departureWindow' := Option.some.inj (h .departureWindow)
  obtain rfl : seed = seed' := Option.some.inj (h .seed)
  rfl

/-- A change puts a value into the place of a setting and leaves all other places alone. -/
structure Sets (setting : Setting) (value : setting.Value) (change : Config → Config) : Prop where
  get?_self : ∀ c, setting.get? (change c) = some value
  get?_of_ne : ∀ other ≠ setting, ∀ c, other.get? (change c) = other.get? c

/-- A text which stands for a value changes the place of the setting, and no other one. -/
theorem sets_of_change? {setting : Setting} {text : String} {change : Config → Config}
    (h : setting.change? text = some change) :
    ∃ value, setting.parse? text = some value ∧ setting.Sets value change := by
  cases setting with
  -- Modes and the directory take any text; the speeds are keyed by their mode.
  | modes =>
    cases h
    exact ⟨_, rfl, fun _ => rfl, fun other hne _ => by cases other <;> first | rfl | cases hne rfl⟩
  | outputDir =>
    cases h
    exact ⟨_, rfl, fun _ => rfl, fun other hne _ => by cases other <;> first | rfl | cases hne rfl⟩
  | speed mode =>
    obtain ⟨speed, hspeed, rfl⟩ := Option.map_eq_some_iff.1 h
    refine ⟨speed, hspeed, fun c => c.multimodal.speeds.get?_insert_self mode speed, ?_⟩
    intro other hne c
    cases other with
    | speed mode' =>
      have hmode : mode' ≠ mode := fun he => hne (congrArg Setting.speed he)
      exact c.multimodal.speeds.get?_insert_of_ne hmode speed
    | _ => rfl
  | _ =>
    obtain ⟨value, hvalue, rfl⟩ := Option.map_eq_some_iff.1 h
    exact ⟨value, hvalue, fun _ => rfl,
      fun other hne _ => by cases other <;> first | rfl | cases hne rfl⟩

theorem change?_eq_none {setting : Setting} {text : String} :
    setting.change? text = none ↔ setting.parse? text = none := by
  cases setting with
  | modes | outputDir => exact ⟨nofun, nofun⟩
  | _ => exact Option.map_eq_none_iff

end Setting

namespace Override

variable {o : Override} {c d : Config} {overrides : List Override}

/-! ## Validity -/

/-- The key is that of a setting, and the text stands for a value of it. -/
def Valid (o : Override) : Prop :=
  ∃ setting : Setting, o.1 = setting.key ∧ (setting.parse? o.2).isSome

/-- What is wrong with an override: no setting has its key, or the text stands for no value of the
setting which has. -/
inductive Fails (o : Override) : ConfigError → Prop
  | unknownKey : (∀ setting : Setting, o.1 ≠ setting.key) → Fails o (.unknownKey o.1)
  | invalidValue {setting : Setting} : o.1 = setting.key → setting.parse? o.2 = none →
      Fails o (.invalidValue o.1 o.2)

theorem change_eq_error {error : ConfigError} : o.change = .error error ↔ o.Fails error := by
  unfold change
  cases hkey : Setting.ofKey? o.1 with
  | none =>
    -- No setting has this key, or it would have been found.
    have hunknown : ∀ setting : Setting, o.1 ≠ setting.key := fun setting he =>
      nomatch hkey.symm.trans (Setting.ofKey?_eq_some.2 he)
    constructor
    · rintro ⟨⟩
      exact .unknownKey hunknown
    · rintro (_ | ⟨he, _⟩)
      · rfl
      · exact absurd he (hunknown _)
  | some setting =>
    have he : o.1 = setting.key := Setting.ofKey?_eq_some.1 hkey
    dsimp only
    split
    · rename_i hnone
      constructor
      · rintro ⟨⟩
        exact .invalidValue he (Setting.change?_eq_none.1 hnone)
      · rintro (hunknown | _)
        · exact absurd he (hunknown setting)
        · rfl
    · rename_i change hchange
      refine ⟨nofun, ?_⟩
      rintro (hunknown | ⟨he', hnone⟩)
      · exact absurd he (hunknown setting)
      · obtain rfl := Setting.key_inj.1 (he.symm.trans he')
        cases hchange.symm.trans (Setting.change?_eq_none.2 hnone)

theorem sets_of_change {change : Config → Config} (h : o.change = .ok change) :
    ∃ (setting : Setting) (value : setting.Value), o.1 = setting.key ∧
      setting.parse? o.2 = some value ∧ setting.Sets value change := by
  unfold Override.change at h
  split at h
  · cases h
  · rename_i setting hkey
    split at h
    · cases h
    · rename_i hchange
      cases h
      obtain ⟨value, hvalue, hsets⟩ := Setting.sets_of_change? hchange
      exact ⟨setting, value, Setting.ofKey?_eq_some.1 hkey, hvalue, hsets⟩

theorem valid_iff : o.Valid ↔ ∃ change, o.change = .ok change := by
  constructor
  · rintro ⟨setting, he, hsome⟩
    cases hchange : o.change with
    | ok change => exact ⟨change, rfl⟩
    | error error =>
      cases change_eq_error.1 hchange with
      | unknownKey hunknown => exact absurd he (hunknown setting)
      | invalidValue he' hnone =>
        obtain rfl := Setting.key_inj.1 (he.symm.trans he')
        rw [hnone] at hsome
        cases hsome
  · rintro ⟨change, hchange⟩
    obtain ⟨setting, value, he, hvalue, -⟩ := sets_of_change hchange
    exact ⟨setting, he, hvalue ▸ rfl⟩

/-! ## Several overrides -/

theorem applyAll_append (c : Config) (first second : List Override) :
    applyAll c (first ++ second) =
      match applyAll c first with
      | .ok () d => applyAll d second
      | .error error d => .error error d := by
  induction first generalizing c with
  | nil => rfl
  | cons o rest ih =>
    simp only [List.cons_append, applyAll]
    cases o.change with
    | error error => rfl
    | ok change => exact ih (change c)

theorem exists_applyAll (c : Config) (h : ∀ o ∈ overrides, o.Valid) :
    ∃ d, applyAll c overrides = .ok () d := by
  induction overrides generalizing c with
  | nil => exact ⟨c, rfl⟩
  | cons o rest ih =>
    obtain ⟨hfirst, hrest⟩ := List.forall_mem_cons.1 h
    obtain ⟨change, hchange⟩ := valid_iff.1 hfirst
    obtain ⟨d, hd⟩ := ih (change c) hrest
    exact ⟨d, by rw [applyAll, hchange]; exact hd⟩

/-- Either all overrides are valid, or one is the first which is not. -/
theorem valid_or_fails (overrides : List Override) :
    (∀ o ∈ overrides, o.Valid) ∨ ∃ before o after error,
      overrides = before ++ o :: after ∧ (∀ p ∈ before, p.Valid) ∧ o.Fails error := by
  induction overrides with
  | nil => exact .inl nofun
  | cons o rest ih =>
    cases hchange : o.change with
    | error error => exact .inr ⟨[], o, rest, error, rfl, nofun, change_eq_error.1 hchange⟩
    | ok change =>
      have hvalid : o.Valid := valid_iff.2 ⟨change, hchange⟩
      rcases ih with hall | ⟨before, p, after, error, rfl, hbefore, hfails⟩
      · exact .inl (List.forall_mem_cons.2 ⟨hvalid, hall⟩)
      · exact .inr ⟨o :: before, p, after, error, rfl,
          List.forall_mem_cons.2 ⟨hvalid, hbefore⟩, hfails⟩

/-- The first override which is not valid ends it, and those before it stay applied. -/
theorem applyAll_of_fails (c : Config) {before after : List Override} {error : ConfigError}
    (hbefore : ∀ p ∈ before, p.Valid) (h : o.Fails error) :
    ∃ d, applyAll c before = .ok () d ∧
      applyAll c (before ++ o :: after) = .error error d := by
  obtain ⟨d, hd⟩ := exists_applyAll c hbefore
  refine ⟨d, hd, ?_⟩
  rw [applyAll_append, hd]
  simp only [applyAll, change_eq_error.2 h]

/-- The last of some overrides which has the key of a setting. -/
def last? (setting : Setting) (overrides : List Override) : Option Override :=
  (overrides.filter (·.1 = setting.key)).getLast?

theorem last?_cons (setting : Setting) (o : Override) (rest : List Override) :
    last? setting (o :: rest) =
      if o.1 = setting.key then some ((last? setting rest).getD o) else last? setting rest := by
  rw [last?, last?]
  split
  · rename_i hkey
    rw [List.filter_cons_of_pos (by simpa using hkey), List.getLast?_cons]
  · rename_i hkey
    rw [List.filter_cons_of_neg (by simpa using hkey)]

/-- A setting has the value of the last override with its key. If there is none, it is what it
was. -/
theorem get?_applyAll (h : applyAll c overrides = .ok () d) (setting : Setting) :
    setting.get? d =
      match last? setting overrides with
      | some o => setting.parse? o.2
      | none => setting.get? c := by
  induction overrides generalizing c with
  | nil =>
    cases h
    rfl
  | cons o rest ih =>
    rw [applyAll] at h
    split at h
    · cases h
    · rename_i change hchange
      obtain ⟨own, value, he, hvalue, hsets⟩ := sets_of_change hchange
      rw [ih h, last?_cons]
      -- The first override counts where it sets this setting and none behind it does.
      by_cases hkey : o.1 = setting.key
      · obtain rfl : setting = own := Setting.key_inj.1 (hkey.symm.trans he)
        rw [if_pos hkey]
        cases last? setting rest with
        | some p => rfl
        | none => exact (hsets.get?_self c).trans hvalue.symm
      · have hne : setting ≠ own := fun hsame => hkey (hsame ▸ he)
        rw [if_neg hkey, hsets.get?_of_ne setting hne]

/-- Valid overrides after which every setting has the same last one do the same. -/
theorem applyAll_congr (c : Config) {others : List Override} (h : ∀ o ∈ overrides, o.Valid)
    (h' : ∀ o ∈ others, o.Valid)
    (hlast : ∀ setting : Setting, last? setting overrides = last? setting others) :
    applyAll c overrides = applyAll c others := by
  obtain ⟨d, hd⟩ := exists_applyAll c h
  obtain ⟨e, he⟩ := exists_applyAll c h'
  obtain rfl : d = e := Setting.ext_get? fun setting => by
    rw [get?_applyAll hd, get?_applyAll he, hlast]
  rw [hd, he]

theorem last?_swap {p : Override} (hne : o.1 ≠ p.1) (setting : Setting) :
    last? setting [o, p] = last? setting [p, o] := by
  simp only [last?_cons]
  by_cases ho : o.1 = setting.key
  · have hp : p.1 ≠ setting.key := fun hp => hne (ho.trans hp.symm)
    simp [ho, hp]
  · simp [ho]

theorem last?_drop {p : Override} (he : o.1 = p.1) (middle : List Override) (setting : Setting) :
    last? setting (o :: (middle ++ [p])) = last? setting (middle ++ [p]) := by
  rw [last?_cons, he]
  by_cases hp : p.1 = setting.key
  · have hsome : last? setting (middle ++ [p]) = some p := by simp [last?, hp]
    rw [if_pos hp, hsome, Option.getD_some]
  · rw [if_neg hp]

theorem applyAll_swap (c : Config) {p : Override} (ho : o.Valid) (hp : p.Valid)
    (hne : o.1 ≠ p.1) (before after : List Override) :
    applyAll c (before ++ o :: p :: after) = applyAll c (before ++ p :: o :: after) := by
  have hpair (c : Config) : applyAll c [o, p] = applyAll c [p, o] :=
    applyAll_congr c (by simp [ho, hp]) (by simp [ho, hp]) (last?_swap hne)
  have hafter (c : Config) : applyAll c ([o, p] ++ after) = applyAll c ([p, o] ++ after) := by
    rw [applyAll_append, hpair, applyAll_append]
  rw [applyAll_append, applyAll_append]
  cases applyAll c before with
  | ok _ d => exact hafter d
  | error error d => rfl

theorem applyAll_drop (c : Config) {p : Override} {middle : List Override} (ho : o.Valid)
    (hmiddle : ∀ q ∈ middle, q.Valid) (hp : p.Valid) (he : o.1 = p.1)
    (before after : List Override) :
    applyAll c (before ++ o :: (middle ++ p :: after)) =
      applyAll c (before ++ (middle ++ p :: after)) := by
  have hlater : ∀ q ∈ middle ++ [p], q.Valid :=
    List.forall_mem_append.2 ⟨hmiddle, List.forall_mem_singleton.2 hp⟩
  have hfirst (c : Config) : applyAll c (o :: (middle ++ [p])) = applyAll c (middle ++ [p]) :=
    applyAll_congr c (List.forall_mem_cons.2 ⟨ho, hlater⟩) hlater (last?_drop he middle)
  have hafter (c : Config) :
      applyAll c (o :: (middle ++ [p]) ++ after) = applyAll c (middle ++ [p] ++ after) := by
    rw [applyAll_append, hfirst, ← applyAll_append]
  rw [applyAll_append, applyAll_append]
  cases applyAll c before with
  | ok _ d => simpa using hafter d
  | error error d => rfl

/-- The first override which is not valid by itself ends it, with its error; the settings are then
as those before it left them. If all are valid, every setting has the value of the last override
with its key, or is what it was. So two neighbours with different keys may change places, and an
override may be left out if a valid one with the same key follows behind valid ones. -/
theorem applyAll_in_order (c : Config) :
    (∀ before o after error, (∀ p ∈ before, Valid p) → Fails o error →
      ∃ d, applyAll c before = .ok () d ∧ applyAll c (before ++ o :: after) = .error error d) ∧
    (∀ overrides, (∀ o ∈ overrides, Valid o) → ∃ d, applyAll c overrides = .ok () d ∧
      ∀ setting : Setting, setting.get? d =
        match last? setting overrides with
        | some o => setting.parse? o.2
        | none => setting.get? c) ∧
    (∀ overrides, (∀ o ∈ overrides, Valid o) ∨ ∃ before o after error,
      overrides = before ++ o :: after ∧ (∀ p ∈ before, Valid p) ∧ Fails o error) ∧
    (∀ before o p after, Valid o → Valid p → o.1 ≠ p.1 →
      applyAll c (before ++ o :: p :: after) = applyAll c (before ++ p :: o :: after)) ∧
    ∀ before o middle p after, Valid o → (∀ q ∈ middle, Valid q) → Valid p → o.1 = p.1 →
      applyAll c (before ++ o :: (middle ++ p :: after)) =
        applyAll c (before ++ (middle ++ p :: after)) := by
  refine ⟨fun before o after error hbefore hfails => applyAll_of_fails c hbefore hfails,
    fun overrides hvalid => ?_, valid_or_fails,
    fun before o p after ho hp hne => applyAll_swap c ho hp hne before after,
    fun before o middle p after ho hmiddle hp he =>
      applyAll_drop c ho hmiddle hp he before after⟩
  obtain ⟨d, hd⟩ := exists_applyAll c hvalid
  exact ⟨d, hd, get?_applyAll hd⟩

/-- Leaving an override out shows if what stands before the next one with its key is not valid: this
next one is never reached. -/
theorem applyAll_drop_before_failure :
    let seven : Override := ("scenario.seed", "7")
    let late : Override := ("simulation.end_time", "soon")
    let eight : Override := ("scenario.seed", "8")
    Valid seven ∧ Valid eight ∧ seven.1 = eight.1 ∧
    ∃ c d,
      applyAll {} [seven, late, eight] = .error (.invalidValue "simulation.end_time" "soon") c ∧
      applyAll {} [late, eight] = .error (.invalidValue "simulation.end_time" "soon") d ∧
      c.scenario.seed = 7 ∧ d.scenario.seed = 42 :=
  ⟨⟨.seed, rfl, by decide⟩, ⟨.seed, rfl, by decide⟩, rfl, _, _, rfl, rfl, rfl, rfl⟩

/-- Three valid overrides, two of which have the same key, before one which is not valid. -/
theorem applyAll_in_order_seeds :
    let before : List Override :=
      [("scenario.seed", "7"), ("multimodal.speeds.walk", "1.5"), ("scenario.seed", "8")]
    let late : Override := ("simulation.end_time", "soon")
    (∀ o ∈ before, Valid o) ∧ Fails late (.invalidValue "simulation.end_time" "soon") ∧
    ∃ d, applyAll {} before = .ok () d ∧
      applyAll {} (before ++ late :: [("scenario.seed", "9")]) =
        .error (.invalidValue "simulation.end_time" "soon") d ∧
      applyAll {} (before.drop 1) = .ok () d ∧
      d.scenario.seed = 8 ∧ d.simulation.endTime = 86400 := by
  intro before late
  have hseven : Valid ("scenario.seed", "7") := ⟨.seed, rfl, by decide⟩
  have hwalk : Valid ("multimodal.speeds.walk", "1.5") := ⟨.speed "walk", rfl, by decide +kernel⟩
  have height : Valid ("scenario.seed", "8") := ⟨.seed, rfl, by decide⟩
  have hbefore : ∀ o ∈ before, Valid o := by simp [before, hseven, hwalk, height]
  have hlate : Fails late (.invalidValue "simulation.end_time" "soon") :=
    @Fails.invalidValue late .endTime rfl (by decide)
  obtain ⟨hfails, hvalid, -, -, hdrop⟩ := applyAll_in_order {}
  obtain ⟨d, hd, hlast⟩ := hvalid before hbefore
  obtain ⟨e, he, hend⟩ := hfails before late [("scenario.seed", "9")] _ hbefore hlate
  -- Both runs start with the same overrides, so they agree on the settings so far.
  obtain rfl : d = e := by
    cases hd.symm.trans he
    rfl
  have hseed : some d.scenario.seed = some 8 := hlast .seed
  have hstop : some d.simulation.endTime = some 86400 := hlast .endTime
  refine ⟨hbefore, hlate, d, hd, hend, ?_, Option.some.inj hseed, Option.some.inj hstop⟩
  rw [← hd]
  exact (hdrop [] _ [_] _ [] hseven (List.forall_mem_singleton.2 hwalk) height rfl).symm

end Override

end NetworkLoading
