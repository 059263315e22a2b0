import CanProxy.Core.Arguments
import CanProxy.Proofs.Core.Config

/-! Reading a command line gives what its values are meant to configure, however they are spelled. -/

namespace CanProxy

section Lookup

/-- Two strings in memory are the same when they are seen the same. -/
theorem sameString_iff (k q : Text) : sameString k q = true ↔ Text.cString k = Text.cString q := by
  fun_induction sameString k q with
  | case1 c ks d qs going ih =>
    -- Both go on with the same character.
    obtain ⟨inside, inside', rfl⟩ := going
    rw [Text.cString_cons, Text.cString_cons, if_neg inside, if_neg inside', ih,
      List.cons.injEq, eq_self, true_and]
  | case2 c ks d qs stopped =>
    rw [Text.cString_cons, Text.cString_cons, Bool.and_eq_true, decide_eq_true_eq, decide_eq_true_eq]
    by_cases ends : c = Text.nul <;> by_cases ends' : d = Text.nul
    · simp [ends, ends']
    · simp [ends, ends']
    · simp [ends, ends']
    · -- Two characters that end neither string are different here.
      have differ : c ≠ d := fun same => stopped ⟨ends, ends', same⟩
      simp [ends, ends', differ]
  | case3 ks qs short =>
    -- One of the two has nothing left, so the other has to end as well.
    cases ks with
    | nil =>
      cases qs with
      | nil => simp
      | cons d qs => by_cases ends : d = Text.nul <;> simp [Text.cString_cons, ends]
    | cons c ks =>
      cases qs with
      | nil => by_cases ends : c = Text.nul <;> simp [Text.cString_cons, ends]
      | cons d qs => exact absurd rfl (short c ks d qs rfl)

/-- What is looked up is the first pair with the key, as long as nothing ends a key early. -/
theorem lookupArg_eq {key : Text} {args : List (Text × Text)} (whole : ∀ pair ∈ args, Text.nul ∉ pair.1)
    (plain : Text.nul ∉ key) :
    lookupArg key args = (args.find? fun pair => pair.1 = key).map Prod.snd := by
  have seen {t : Text} (whole : Text.nul ∉ t) : Text.cString t = t :=
    Text.cString_eq fun c member same => whole (same ▸ member)
  -- Pair by pair; without an early end, looking the same and being the same are one.
  induction args with
  | nil => rfl
  | cons pair rest ih =>
    obtain ⟨head, later⟩ := List.forall_mem_cons.mp whole
    have found : sameString pair.1 key = true ↔ pair.1 = key := by
      rw [sameString_iff, seen head, seen plain]
    rw [lookupArg, List.find?_cons]
    by_cases same : pair.1 = key
    · rw [if_pos (found.mpr same), decide_eq_true same]
      rfl
    · rw [if_neg fun hit => same (found.mp hit), decide_eq_false same]
      exact ih later

end Lookup

namespace PluginHost

/-- The arguments that the host passes on; an interface that is not given is passed on as none. -/
def passes (vehicleIf : Text) (args : List (Text × Text)) : PluginArgs :=
  ⟨if vehicleIf = [] then none else some vehicleIf, args⟩

/-- An instance is created with what the host was given. -/
theorem create_passes {H I : Type} {p : PluginHost H I} {vehicleIf : Text} {args : List (Text × Text)}
    {result created : Option I} {library : H} {pa : PluginArgs}
    (made : .create library pa created ∈ (p.create vehicleIf args result).events) :
    pa = passes vehicleIf args := by
  unfold create at made
  -- Without a plugin, or with an instance, nothing is created at all.
  split at made
  · cases made
  · split at made
    · cases made
    · dsimp only at made
      split at made <;>
      · cases List.mem_singleton.mp made
        rfl

end PluginHost

namespace Config

section Keys

/-- No option has an equals sign in its name. -/
theorem equals_not_mem_key (opt : Opt) : '=' ∉ opt.key := by
  cases opt <;> decide

/-- Different options have different names. -/
theorem key_inj {opt other : Opt} (same : opt.key = other.key) : opt = other := by
  cases opt <;> cases other <;> first | rfl | exact absurd same (by decide)

theorem mem_all (opt : Opt) : opt ∈ Opt.all := by
  cases opt <;> decide

/-- What stands in front of the first equals sign is what is cut off there. -/
theorem takeWhile_equals {name : Text} (plain : '=' ∉ name) (value : Text) :
    (name ++ '=' :: value).takeWhile (· ≠ '=') = name :=
  Scan.takeWhile_stop (fun c member => decide_eq_true fun same => plain (same ▸ member)) (by simp)

theorem dropWhile_equals {name : Text} (plain : '=' ∉ name) (value : Text) :
    (name ++ '=' :: value).dropWhile (· ≠ '=') = '=' :: value :=
  Scan.dropWhile_stop (fun c member => decide_eq_true fun same => plain (same ▸ member)) (by simp)

/-- An argument that joins a value to an option has a value for this option alone. -/
theorem takeValue_joined (opt other : Opt) (v : Text) (next : Option Text) :
    takeValue (opt.key ++ '=' :: v) other.key next = if other = opt then some (v, false) else none := by
  unfold takeValue
  by_cases same : other = opt
  · -- Behind the name and the equals sign the value is left.
    have begins : (opt.key ++ ['=']).isPrefixOf (opt.key ++ '=' :: v) = true :=
      List.isPrefixOf_iff_prefix.mpr ⟨v, by simp⟩
    rw [same, if_pos begins, if_pos rfl, ← List.drop_drop, List.drop_left]
    rfl
  · have apart : (other.key ++ ['=']).isPrefixOf (opt.key ++ '=' :: v) = false := by
      rw [Bool.eq_false_iff]
      intro begins
      obtain ⟨rest, split⟩ := List.isPrefixOf_iff_prefix.mp begins
      rw [List.append_assoc, List.singleton_append] at split
      -- The name of an option goes up to the first equals sign.
      have names := congrArg (List.takeWhile (· ≠ '=')) split
      rw [takeWhile_equals (equals_not_mem_key other), takeWhile_equals (equals_not_mem_key opt)] at names
      exact same (key_inj names)
    have unwritten : opt.key ++ '=' :: v ≠ other.key := by
      intro written
      exact equals_not_mem_key other (written ▸ by simp)
    rw [apart, if_neg Bool.false_ne_true, if_neg unwritten, if_neg same]

theorem takeValue_apart (opt other : Opt) (v : Text) :
    takeValue opt.key other.key (some v) = if other = opt then some (v, true) else none := by
  unfold takeValue
  -- A bare option has no equals sign, so it joins no value.
  have unjoined : (other.key ++ ['=']).isPrefixOf opt.key = false := by
    rw [Bool.eq_false_iff]
    intro begins
    have member : '=' ∈ opt.key := (List.isPrefixOf_iff_prefix.mp begins).subset (by simp)
    exact equals_not_mem_key opt member
  rw [unjoined, if_neg Bool.false_ne_true]
  by_cases same : other = opt
  · rw [same, if_pos rfl, if_pos rfl]
    rfl
  · rw [if_neg fun written => same (key_inj written).symm, if_neg same]

/-- The first option that has a value is the only one. -/
theorem takeOption_eq {arg v : Text} {next : Option Text} {opt : Opt} {taken : Bool}
    (only : ∀ other : Opt, takeValue arg other.key next = if other = opt then some (v, taken) else none) :
    takeOption arg next = some (opt, v, taken) := by
  unfold takeOption
  simp only [only]
  -- All options are compared with, and one of them has the value.
  cases opt <;> rfl

/-- No option, with or without a value, asks for the usage. -/
theorem isHelp_key (opt : Opt) : isHelp opt.key = false := by
  cases opt <;> decide

theorem isHelp_joined (opt : Opt) (v : Text) : isHelp (opt.key ++ '=' :: v) = false := by
  cases opt <;> rfl

end Keys

/-- Store pairs one after the other, as the loop does with those it reads. -/
def storeAll (out : Config) : List (Opt × Text) → Config × Text
  | [] => finish out
  | (opt, v) :: rest =>
    match store out v opt with
    | .ok out => storeAll out rest
    | .error e => (out, e)

/-- The loop stores the pairs that its arguments spell, and nothing else. -/
theorem parseLoop_spells {pairs : List (Opt × Text)} {args : List Text} (spells : Spells pairs args)
    (out : Config) : parseLoop out false args = storeAll out pairs := by
  -- The induction follows the spelling; both ways of writing a value hand over the same pair.
  induction spells generalizing out with
  | nil => rfl
  | joined opt v rest ih =>
    rw [parseLoop, isHelp_joined, if_neg Bool.false_ne_true,
      takeOption_eq fun other => takeValue_joined opt other v _, storeAll]
    dsimp only
    cases stored : store out v opt with
    | ok out => exact ih out
    | error e => rfl
  | apart opt v rest ih =>
    rw [parseLoop, isHelp_key, if_neg Bool.false_ne_true, List.head?_cons,
      takeOption_eq fun other => takeValue_apart opt other v, storeAll]
    dsimp only
    cases stored : store out v opt with
    | ok out => exact ih out
    | error e => rfl

section Collected

variable (env : Option Text) (past : List (Opt × Text))

theorem valuesIn_concat (opt other : Opt) (v : Text) :
    valuesIn other (past ++ [(opt, v)]) = valuesIn other past ++ if opt = other then [v] else [] := by
  rw [valuesIn, Run.filterMap_concat, ← valuesIn, valueFor]
  split <;> rfl

theorem lastIn_concat (opt other : Opt) (v : Text) :
    lastIn other (past ++ [(opt, v)]) = if opt = other then some v else lastIn other past := by
  rw [lastIn, Run.last_concat, valueFor]
  split <;> rfl

/-- A plugin argument is taken apart where its value is searched for an equals sign. -/
theorem store_pluginArg (out : Config) {name : Text} (named : name ≠ []) (plain : '=' ∉ name)
    (value : Text) :
    store out (name ++ '=' :: value) .pluginArg =
      .ok { out with pluginArgs := out.pluginArgs ++ [splitArg (name ++ '=' :: value)] } := by
  simp only [store, List.span_eq_takeWhile_dropWhile, splitArg, takeWhile_equals plain,
    dropWhile_equals plain, if_neg named, List.tail_cons]

/-- A value that its option takes is collected behind the earlier ones. -/
theorem store_collected {opt : Opt} {v : Text} (takes : Takes v opt) :
    store (collected env past) v opt = .ok (collected env (past ++ [(opt, v)])) := by
  -- An option with a single value replaces it, and the plugin's arguments grow at the end.
  cases opt with
  | contractIf | vehicleIf | plugin | pluginDir =>
    simp [store, collected, lastIn_concat, valuesIn_concat]
  | pluginArg =>
    obtain ⟨name, value, named, plain, rfl⟩ := takes
    rw [store_pluginArg _ named plain]
    simp [collected, lastIn_concat, valuesIn_concat]
  | pluginTimeoutMs =>
    obtain ⟨n, positive, read⟩ := takes
    simp [store, collected, lastIn_concat, valuesIn_concat, read, Int.not_le.mpr positive]
  | record =>
    simp [store, collected, lastIn_concat, valuesIn_concat, show v ≠ [] from takes]
  | logLevel =>
    obtain ⟨level, known⟩ := Option.isSome_iff_exists.mp takes
    simp [store, collected, lastIn_concat, valuesIn_concat, known]

/-- A value that its option does not take ends the command line with an error. -/
theorem store_refuses (out : Config) {opt : Opt} {v : Text} (refused : ¬Takes v opt) :
    ∃ e ≠ [], store out v opt = .error e := by
  -- Four options take anything; each of the others says what is wrong.
  cases opt with
  | contractIf | vehicleIf | plugin | pluginDir => exact absurd trivial refused
  | pluginArg =>
    by_cases split : '=' ∈ v
    · obtain ⟨name, value, rfl, plain⟩ := List.eq_append_cons_of_mem split
      -- Nothing is in front of the equals sign, or the value would be taken.
      obtain rfl : name = [] := by
        by_contra named
        exact refused ⟨name, value, named, plain, rfl⟩
      exact ⟨_, by simp, rfl⟩
    · have whole : v.dropWhile (· ≠ '=') = [] :=
        List.dropWhile_eq_nil_iff.mpr fun c member => decide_eq_true fun same => split (same ▸ member)
      simp only [store, List.span_eq_takeWhile_dropWhile, whole]
      exact ⟨_, by simp, rfl⟩
  | pluginTimeoutMs =>
    have wrong : (Scan.strtol (Text.cString v)).2 ≠ [] ∨ (Scan.strtol (Text.cString v)).1 ≤ 0 := by
      by_contra sound
      rw [not_or, not_not, not_le] at sound
      exact refused ⟨_, sound.2, Prod.ext rfl sound.1⟩
    exact ⟨_, by decide, if_pos wrong⟩
  | record =>
    obtain rfl : v = [] := not_not.mp refused
    exact ⟨_, by decide, rfl⟩
  | logLevel =>
    have unknown : parseLogLevel v = none := Option.not_isSome_iff_eq_none.mp refused
    simp only [store, unknown]
    exact ⟨_, by simp, rfl⟩

/-- What is stored without an error are values that their options take, and it is what they collect. -/
theorem storeAll_accepted {pairs : List (Opt × Text)} {cfg : Config} :
    storeAll (collected env past) pairs = (cfg, []) ↔
      (∀ pair ∈ pairs, Takes pair.2 pair.1) ∧ finish (collected env (past ++ pairs)) = (cfg, []) := by
  -- What was stored so far is what the pairs so far collect, which the next pair extends.
  induction pairs generalizing past with
  | nil => simp [storeAll]
  | cons pair rest ih =>
    obtain ⟨opt, v⟩ := pair
    rw [storeAll, List.forall_mem_cons, List.append_cons]
    by_cases takes : Takes v opt
    · rw [store_collected env past takes]
      dsimp only
      rw [ih, and_iff_right takes]
    · obtain ⟨e, told, failed⟩ := store_refuses (collected env past) takes
      rw [failed]
      dsimp only
      refine iff_of_false (fun ended => ?_) fun taken => takes taken.1.1
      exact told (Prod.ext_iff.mp ended).2

variable {past}

theorem mem_valuesIn {opt : Opt} {v : Text} : v ∈ valuesIn opt past ↔ (opt, v) ∈ past := by
  rw [valuesIn, List.mem_filterMap]
  constructor
  · intro given
    obtain ⟨pair, member, picked⟩ := given
    unfold valueFor at picked
    split at picked
    next own =>
      cases picked
      rwa [← own]
    next => cases picked
  · intro member
    exact ⟨(opt, v), member, if_pos rfl⟩

/-- The last value of an option is one of its values. -/
theorem mem_of_lastIn {opt : Opt} {v : Text} (last : lastIn opt past = some v) : (opt, v) ∈ past :=
  mem_valuesIn.mp (List.mem_of_getLast? last)

/-- Behind the last argument a recorded path is passed on, and it is there when it was given. -/
theorem recorded_collected (taken : ∀ pair ∈ past, Takes pair.2 pair.1) :
    (if (collected env past).recordPath ≠ [] then
      { collected env past with
        pluginArgs := (collected env past).pluginArgs ++
          [("record".toList, (collected env past).recordPath)] }
    else collected env past) = configured env past := by
  -- A path that was taken is not empty, so the test for an empty one tells whether it was given.
  cases last : lastIn .record past with
  | none => simp [configured, collected, recordArgs, last]
  | some v =>
    have path : v ≠ [] := taken _ (mem_of_lastIn last)
    simp [configured, collected, recordArgs, last, path]

theorem getD_ne_nil {last : Option Text} : last.getD [] ≠ [] ↔ ∃ v ≠ [], last = some v := by
  cases last <;> simp

/-- Behind the last argument only the two required options can be missing. -/
theorem finish_collected (taken : ∀ pair ∈ past, Takes pair.2 pair.1) {cfg : Config} :
    finish (collected env past) = (cfg, []) ↔
      ((∃ v ≠ [], lastIn .contractIf past = some v) ∧ ∃ v ≠ [], lastIn .plugin past = some v) ∧
        cfg = configured env past := by
  -- The recorded path comes first, and then the two options that are required.
  rw [finish]
  simp only [recorded_collected env taken]
  rw [← getD_ne_nil, ← getD_ne_nil]
  change (if (lastIn .contractIf past).getD [] = [] then _
    else if (lastIn .plugin past).getD [] = [] then _ else _) = _ ↔ _
  split
  next missing => simp [missing]
  next bound =>
    split
    next missing => simp [missing]
    next named =>
      rw [Prod.mk.injEq, and_iff_left rfl, and_iff_right ⟨bound, named⟩]
      exact eq_comm

end Collected

/-- A command line is accepted exactly when its pairs are acceptable, and is what they configure. -/
theorem parse_accepted (env : Option Text) {pairs : List (Opt × Text)} {args : List Text}
    (spells : Spells pairs args) {cfg : Config} :
    parse env args = (cfg, []) ↔ Acceptable pairs ∧ cfg = configured env pairs := by
  -- The loop starts from what no pairs collect.
  have start : ({ pluginDir := env.getD defaultPluginDir } : Config) = collected env [] := rfl
  rw [parse, parseLoop_spells spells, start, storeAll_accepted, List.nil_append]
  constructor
  · intro stored
    obtain ⟨taken, finished⟩ := stored
    obtain ⟨⟨contractIf, plugin⟩, same⟩ := (finish_collected env taken).mp finished
    exact ⟨⟨taken, contractIf, plugin⟩, same⟩
  · intro configures
    obtain ⟨⟨taken, contractIf, plugin⟩, same⟩ := configures
    exact ⟨taken, (finish_collected env taken).mpr ⟨⟨contractIf, plugin⟩, same⟩⟩

section Accepted

variable {env : Option Text} {pairs : List (Opt × Text)}

/-- Every list of pairs can be spelled. -/
theorem exists_spells (pairs : List (Opt × Text)) : ∃ args, Spells pairs args := by
  -- Every value can be joined to its option.
  induction pairs with
  | nil => exact ⟨[], .nil⟩
  | cons pair rest ih =>
    obtain ⟨args, spells⟩ := ih
    exact ⟨_, .joined pair.1 pair.2 spells⟩

/-- A number in the range of its field is kept as it is, and no other is. -/
theorem toNat_ofInt_eq_iff {n : ℤ} (positive : 0 < n) :
    ((UInt32.ofInt n).toNat : ℤ) = n ↔ n < 2 ^ 32 := by
  rw [toNat_ofInt]
  omega

/-- Each option holds its last value, but for a timeout that its field is too narrow for. -/
theorem configured_holds_iff (acceptable : Acceptable pairs) {opt : Opt} {v : Text}
    (last : lastIn opt pairs = some v) :
    (configured env pairs).Holds v opt ↔
      (opt = .pluginTimeoutMs → (Scan.strtol (Text.cString v)).1 < 2 ^ 32) := by
  have takes : Takes v opt := acceptable.taken _ (mem_of_lastIn last)
  -- Only the timeout is stored in a field that is narrower than what was read.
  cases opt with
  | contractIf | vehicleIf | plugin | pluginDir | record =>
    refine iff_of_true ?_ nofun
    simp [Holds, configured, collected, last]
  | pluginArg => exact iff_of_true trivial nofun
  | pluginTimeoutMs =>
    obtain ⟨n, positive, read⟩ := takes
    simp only [Holds, configured, collected, last, read, Option.map_some, Option.getD_some,
      Prod.mk.injEq, and_true, forall_const]
    exact eq_comm.trans (toNat_ofInt_eq_iff positive)
  | logLevel =>
    obtain ⟨level, known⟩ := Option.isSome_iff_exists.mp takes
    refine iff_of_true ?_ nofun
    simp [Holds, configured, collected, last, known]

/-- What pairs configure depends only on the values of each option. -/
theorem acceptable_reordered (env : Option Text) {pairs' : List (Opt × Text)}
    (same : ∀ opt, valuesIn opt pairs' = valuesIn opt pairs) (acceptable : Acceptable pairs) :
    Acceptable pairs' ∧ configured env pairs' = configured env pairs := by
  -- The last value of an option is one of its values, so the order among options is never looked at.
  have lasts (opt : Opt) : lastIn opt pairs' = lastIn opt pairs := congrArg List.getLast? (same opt)
  refine ⟨⟨fun pair member => ?_, ?_, ?_⟩, ?_⟩
  · -- A value of one list is a value of the same option in the other.
    have given : pair.2 ∈ valuesIn pair.1 pairs' := mem_valuesIn.mpr member
    rw [same] at given
    exact acceptable.taken _ (mem_valuesIn.mp given)
  · rw [lasts]
    exact acceptable.contractIf
  · rw [lasts]
    exact acceptable.plugin
  · simp only [configured, collected, recordArgs, lasts, same]

/-- A value that a plugin argument takes is its key and its value with an equals sign between. -/
theorem splitArg_joined {v : Text} (takes : Takes v .pluginArg) :
    (splitArg v).1 ++ '=' :: (splitArg v).2 = v := by
  obtain ⟨name, value, -, plain, rfl⟩ := takes
  simp only [splitArg, takeWhile_equals plain, dropWhile_equals plain, List.tail_cons]

theorem equals_not_mem_splitArg (v : Text) : '=' ∉ (splitArg v).1 := by
  intro member
  have differs := List.mem_takeWhile_imp (show '=' ∈ v.takeWhile (· ≠ '=') from member)
  exact of_decide_eq_true differs rfl

/-- The plugin is created with the arguments that the host was given. -/
theorem create_args {H I : Type} {host : PluginHost H I} {vehicleIf : Text} {args : List (Text × Text)}
    {result created : Option I} {library : H} {pa : PluginArgs}
    (made : .create library pa created ∈ (host.create vehicleIf args result).events) : pa.args = args :=
  congrArg PluginArgs.args (PluginHost.create_passes made)

/-- No key of a plugin argument ends early when no value does. -/
theorem configured_keys (terminated : ∀ pair ∈ pairs, Text.nul ∉ pair.2) :
    ∀ part ∈ (configured env pairs).pluginArgs, Text.nul ∉ part.1 := by
  intro part member
  rcases List.mem_append.mp member with given | recorded
  · obtain ⟨v, listed, rfl⟩ := List.mem_map.mp given
    exact fun ends => terminated _ (mem_valuesIn.mp listed) (List.takeWhile_subset _ ends)
  · obtain ⟨path, -, rfl⟩ := List.mem_map.mp recorded
    exact (by decide : Text.nul ∉ "record".toList)

end Accepted

/--
Command lines do with option values what is expected, in every spelling and whatever the values are,
exactly when the last timeout of an acceptable one fits its field: all spellings have the same
outcome; each option has its last value; the order of different options does not matter; the plugin
gets its arguments in order, with the recorded path behind them; and what it looks up is the
first of them with the key.
-/
theorem configures_iff (env : Option Text) (pairs : List (Opt × Text))
    (terminated : ∀ pair ∈ pairs, Text.nul ∉ pair.2) :
    Configures env pairs ↔ (Acceptable pairs → ∀ v, lastIn .pluginTimeoutMs pairs = some v →
      (Scan.strtol (Text.cString v)).1 < 2 ^ 32) := by
  constructor
  · intro configures acceptable v last
    obtain ⟨args, spells⟩ := exists_spells pairs
    have accepted := (parse_accepted env spells).mpr ⟨acceptable, rfl⟩
    exact (configured_holds_iff acceptable last).mp (configures.last args _ spells accepted _ v last) rfl
  · intro fits
    refine ⟨?_, ?_, ?_, ?_, ?_⟩
    · intro args args' spells spells'
      rw [parse, parse, parseLoop_spells spells, parseLoop_spells spells']
    · intro args cfg spells accepted opt v last
      obtain ⟨acceptable, rfl⟩ := (parse_accepted env spells).mp accepted
      exact (configured_holds_iff acceptable last).mpr fun own => fits acceptable v (own ▸ last)
    · intro args cfg spells accepted pairs' args' same spells'
      obtain ⟨acceptable, rfl⟩ := (parse_accepted env spells).mp accepted
      obtain ⟨acceptable', configured'⟩ := acceptable_reordered env same acceptable
      exact (parse_accepted env spells').mpr ⟨acceptable', configured'.symm⟩
    · intro args cfg spells accepted
      obtain ⟨acceptable, rfl⟩ := (parse_accepted env spells).mp accepted
      refine ⟨(valuesIn .pluginArg pairs).map splitArg, ?_, ?_, rfl⟩
      · rw [List.map_map, eq_comm]
        refine (List.map_congr_left fun v member => ?_).trans (List.map_id _)
        exact splitArg_joined (acceptable.taken _ (mem_valuesIn.mp member))
      · intro part member
        obtain ⟨v, -, rfl⟩ := List.mem_map.mp member
        exact equals_not_mem_splitArg v
    · intro args cfg spells accepted H I host created result library pa made key plain
      obtain ⟨acceptable, rfl⟩ := (parse_accepted env spells).mp accepted
      rw [canproxyArg, create_args made]
      exact lookupArg_eq (configured_keys terminated) plain

/-- Options may be repeated and values may look like options, as long as the last timeout fits. -/
theorem configures_iff_short :
    Configures none [(.pluginTimeoutMs, "4294967296".toList), (.plugin, "--help".toList),
      (.pluginArg, "a=b=c".toList), (.contractIf, "vcan0".toList), (.pluginTimeoutMs, "250".toList)] := by
  refine (configures_iff none _ ?_).mpr fun _ v last => ?_
  · decide
  · cases last
    decide

/-- A timeout one above what its field holds is not the one that is configured. -/
theorem configures_not :
    let pairs : List (Opt × Text) :=
      [(.contractIf, "vcan0".toList), (.plugin, "sim".toList), (.pluginTimeoutMs, "4294967296".toList)]
    let args :=
      ["--contract-if=vcan0", "--plugin", "sim", "--plugin-timeout-ms=4294967296"].map String.toList
    Spells pairs args ∧ (parse none args).2 = [] ∧ (parse none args).1.pluginTimeoutMs = 0 ∧
      ¬Configures none pairs := by
  intro pairs args
  have spells : Spells pairs args :=
    .joined .contractIf "vcan0".toList (.apart .plugin "sim".toList
      (.joined .pluginTimeoutMs "4294967296".toList .nil))
  have accepted : (parse none args).2 = [] := by decide
  have vanished : (parse none args).1.pluginTimeoutMs = 0 := by decide
  refine ⟨spells, accepted, vanished, fun configures => ?_⟩
  have read : Scan.strtol (Text.cString "4294967296".toList) =
      (((parse none args).1.pluginTimeoutMs.toNat : ℤ), []) :=
    configures.last args _ spells (Prod.ext rfl accepted) .pluginTimeoutMs _ rfl
  rw [vanished] at read
  exact absurd read (by decide)

end Config

end CanProxy
