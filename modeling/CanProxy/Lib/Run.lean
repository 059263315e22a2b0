import Mathlib.Data.List.DropRight
import Mathlib.Data.List.Induction

/-! Machines that emit outputs: what a run reaches, what it emits, and how to reason about either. -/

namespace Run

variable {σ ι ο σ' ι' ο' : Type*}

/-- The state a machine reaches by reading its inputs in order. -/
def final (step : σ → ι → σ × List ο) (s : σ) (inputs : List ι) : σ :=
  inputs.foldl (fun s input => (step s input).1) s

/-- Everything a machine emits while reading its inputs. -/
def outputs (step : σ → ι → σ × List ο) : σ → List ι → List ο
  | _, [] => []
  | s, input :: rest => (step s input).2 ++ outputs step (step s input).1 rest

/-- Every step of a run meets a condition on the state before it and its input. -/
def Along (step : σ → ι → σ × List ο) (ok : σ → ι → Prop) : σ → List ι → Prop
  | _, [] => True
  | s, input :: rest => ok s input ∧ Along step ok (step s input).1 rest

section Machine

variable (step : σ → ι → σ × List ο)

@[simp] theorem final_nil (s : σ) : final step s [] = s := rfl

@[simp] theorem final_cons (s : σ) (input : ι) (rest : List ι) :
    final step s (input :: rest) = final step (step s input).1 rest := rfl

@[simp] theorem outputs_nil (s : σ) : outputs step s [] = [] := rfl

@[simp] theorem outputs_cons (s : σ) (input : ι) (rest : List ι) :
    outputs step s (input :: rest) = (step s input).2 ++ outputs step (step s input).1 rest := rfl

/-- Two runs in a row reach what the second reaches from the end of the first. -/
theorem final_append (s : σ) (first second : List ι) :
    final step s (first ++ second) = final step (final step s first) second :=
  List.foldl_append

/-- Two runs in a row emit what the first emits and then what the second does. -/
theorem outputs_append (s : σ) (first second : List ι) :
    outputs step s (first ++ second) =
      outputs step s first ++ outputs step (final step s first) second := by
  -- The induction is on the first run; each of its steps moves the state the rest starts from.
  induction first generalizing s with
  | nil => rfl
  | cons input rest ih => simp only [List.cons_append, outputs_cons, final_cons, ih, List.append_assoc]

/-- Whatever a run emits is emitted for one of its inputs. -/
theorem mem_outputs {s : σ} {inputs : List ι} {o : ο} (emitted : o ∈ outputs step s inputs) :
    ∃ input ∈ inputs, ∃ t, o ∈ (step t input).2 := by
  induction inputs generalizing s with
  | nil => cases emitted
  | cons input rest ih =>
    rcases List.mem_append.mp emitted with now | later
    · exact ⟨input, List.mem_cons_self, s, now⟩
    · obtain ⟨input, member, found⟩ := ih later
      exact ⟨input, List.mem_cons_of_mem _ member, found⟩

/-- Each output of a run is emitted at one of its steps, after everything the steps before it emit. -/
theorem outputs_split {s : σ} {inputs : List ι} {before after : List ο} {o : ο}
    (split : outputs step s inputs = before ++ o :: after) :
    ∃ past input later part rest, inputs = past ++ input :: later ∧
      (step (final step s past) input).2 = part ++ o :: rest ∧
      before = outputs step s past ++ part := by
  -- The output is emitted by the first step, or by a later one of the run that the step leads to.
  induction inputs generalizing s before with
  | nil => simp at split
  | cons input later ih =>
    rw [outputs_cons] at split
    rcases List.append_eq_append_iff.mp split with ⟨more, rfl, emitted⟩ | ⟨more, now, emitted⟩
    · obtain ⟨past, next, later, part, rest, rfl, found, rfl⟩ := ih emitted
      exact ⟨input :: past, next, later, part, rest, rfl, found, by simp⟩
    · cases more with
      | nil =>
        obtain ⟨past, next, later, part, rest, rfl, found, same⟩ := @ih _ [] emitted.symm
        obtain ⟨none, rfl⟩ := List.append_eq_nil_iff.mp same.symm
        refine ⟨input :: past, next, later, [], rest, rfl, found, ?_⟩
        simpa [none] using now.symm
      | cons first more =>
        obtain ⟨rfl, -⟩ := List.cons.inj emitted
        exact ⟨[], input, later, before, more, rfl, now, rfl⟩

/--
The history rule: a property of the inputs read, the outputs emitted, and the state reached holds
after a run when it holds at the start and every step of that run keeps it.
-/
theorem invariant {s : σ} {inputs : List ι} {P : List ι → List ο → σ → Prop} (start : P [] [] s)
    (kept : ∀ past input, past ++ [input] <+: inputs →
      P past (outputs step s past) (final step s past) →
      P (past ++ [input]) (outputs step s past ++ (step (final step s past) input).2)
        (step (final step s past) input).1) :
    P inputs (outputs step s inputs) (final step s inputs) := by
  -- Induction on the prefixes of the run, each one step longer than the last.
  have prefixes : ∀ past, past <+: inputs → P past (outputs step s past) (final step s past) := by
    -- A longer prefix extends a shorter one by the step that keeps the property.
    intro past
    induction past using List.reverseRecOn with
    | nil => exact fun _ => start
    | append_singleton past input ih =>
      intro within
      have kept := kept past input within (ih ((List.prefix_append past [input]).trans within))
      simpa only [final_append, outputs_append, final_cons, final_nil, outputs_cons, outputs_nil,
        List.append_nil] using kept
  exact prefixes inputs (List.prefix_refl inputs)

variable {step} in
/-- A condition met along a run is met at the end of each of its beginnings. -/
theorem Along.at_step {ok : σ → ι → Prop} {s : σ} {inputs past : List ι} {input : ι}
    (met : Along step ok s inputs) (within : past ++ [input] <+: inputs) :
    ok (final step s past) input := by
  -- Walking down the beginning moves the state and the remaining condition together.
  induction past generalizing s inputs with
  | nil =>
    -- With nothing read yet, the condition asked for is the first one of the run.
    obtain ⟨rest, rfl⟩ := within
    exact met.1
  | cons first past ih =>
    obtain ⟨rest, rfl⟩ := within
    exact ih met.2 (List.prefix_append (past ++ [input]) rest)

variable {step} in
/-- A condition met along a run is met along each of its beginnings. -/
theorem Along.of_append {ok : σ → ι → Prop} {s : σ} {first second : List ι}
    (met : Along step ok s (first ++ second)) : Along step ok s first := by
  induction first generalizing s with
  | nil => trivial
  | cons input rest ih => exact ⟨met.1, ih met.2⟩

/-- A condition along a run can be checked step by step. -/
instance Along.decidable (ok : σ → ι → Prop) [∀ s input, Decidable (ok s input)] :
    (s : σ) → (inputs : List ι) → Decidable (Along step ok s inputs)
  | _, [] => inferInstanceAs (Decidable True)
  | s, input :: rest =>
    have := Along.decidable ok (step s input).1 rest
    inferInstanceAs (Decidable (ok s input ∧ Along step ok (step s input).1 rest))

variable {μ : Type*} (idle : μ → ι → Bool) (remember : μ → σ → ι → μ)

/-- The inputs of a run without those that a memory of the ones that stayed calls idle. -/
def awake : σ → μ → List ι → List ι
  | _, _, [] => []
  | s, known, input :: rest =>
    -- What is left out neither moves the machine nor is remembered.
    if idle known input then awake s known rest
    else input :: awake (step s input).1 (remember known s input) rest

variable {step idle remember} in
/-- Leaving out inputs that do nothing changes neither the outputs of a run nor where it ends. -/
theorem awake_same {R : σ → μ → Prop}
    (still : ∀ s known input, R s known → idle known input = true → step s input = (s, []))
    (kept : ∀ s known input, R s known → idle known input = false →
      R (step s input).1 (remember known s input))
    {s : σ} {known : μ} (related : R s known) (inputs : List ι) :
    outputs step s (awake step idle remember s known inputs) = outputs step s inputs ∧
      final step s (awake step idle remember s known inputs) = final step s inputs := by
  induction inputs generalizing s known with
  | nil => exact ⟨rfl, rfl⟩
  | cons input rest ih =>
    unfold awake
    by_cases quiet : idle known input = true
    · -- The machine stays where it is, so the rest of the run starts there as well.
      obtain ⟨emitted, reached⟩ := ih related
      rw [if_pos quiet, emitted, reached, outputs_cons, final_cons,
        still s known input related quiet]
      exact ⟨rfl, rfl⟩
    · obtain ⟨emitted, reached⟩ := ih (kept s known input related (Bool.eq_false_iff.mpr quiet))
      rw [if_neg quiet, outputs_cons, outputs_cons, final_cons, final_cons, emitted, reached]
      exact ⟨rfl, rfl⟩

end Machine

/-- Every entry of a log stands in a relation to the part of the log before it. -/
def Each (P : List ο → ο → Prop) (log : List ο) : Prop :=
  ∀ before entry after, log = before ++ entry :: after → P before entry

section Each

variable {P : List ο → ο → Prop} {log more : List ο}

theorem each_nil : Each P [] := by
  -- An empty log splits around no entry.
  intro before entry after split
  simp at split

/-- One more entry only has to be checked against what is there. -/
theorem each_concat {last : ο} (earlier : Each P log) (checked : P log last) :
    Each P (log ++ [last]) := by
  intro before entry after split
  -- Either the split is at the new entry, or it lies within the earlier log.
  rcases List.eq_nil_or_concat after with rfl | ⟨after, final, rfl⟩
  · obtain ⟨rfl, same⟩ := List.append_inj' split rfl
    obtain rfl := List.singleton_inj.mp same
    exact checked
  · rw [List.concat_eq_append, ← List.cons_append, ← List.append_assoc] at split
    exact earlier before entry after (List.append_inj_left' split rfl)

/-- The beginning of a log is checked with the log. -/
theorem each_of_append (each : Each P (log ++ more)) : Each P log := by
  intro before entry after split
  refine each before entry (after ++ more) ?_
  rw [split, List.append_assoc]
  rfl

/-- A log is checked entry by entry, the last one against all the others. -/
theorem each_concat_iff {last : ο} : Each P (log ++ [last]) ↔ Each P log ∧ P log last := by
  constructor
  · intro each
    exact ⟨each_of_append each, each log last [] rfl⟩
  · rintro ⟨earlier, checked⟩
    exact each_concat earlier checked

/-- A log is checked place by place, which can be decided when the relation can. -/
theorem each_iff_getElem :
    Each P log ↔ ∀ i (inside : i < log.length), P (log.take i) (log.get ⟨i, inside⟩) := by
  constructor
  · intro each i inside
    refine each (log.take i) _ (log.drop (i + 1)) ?_
    rw [List.get_eq_getElem, List.getElem_cons_drop, List.take_append_drop]
  · intro checked before entry after split
    subst split
    simpa using checked before.length (by simp)

instance [∀ before entry, Decidable (P before entry)] : Decidable (Each P log) :=
  decidable_of_iff _ each_iff_getElem.symm

/-- Entries the relation says nothing about can be added freely. -/
theorem each_append (earlier : Each P log) (exempt : ∀ entry ∈ more, ∀ before, P before entry) :
    -- The new entries are added one at a time, each against whatever precedes it.
    Each P (log ++ more) := by
  induction more using List.reverseRecOn with
  | nil => rwa [List.append_nil]
  | append_singleton rest entry ih =>
    rw [← List.append_assoc]
    refine each_concat (ih fun entry member => exempt entry (List.mem_append_left _ member)) ?_
    exact exempt entry (by simp) _

end Each

section Held

variable {α : Type*} (takes gives : ο → Option α)

/-- What is held after one more entry: what the entry takes, or nothing when it gives something back. -/
def hold (before : Option α) (entry : ο) : Option α :=
  (takes entry).or (if (gives entry).isSome then none else before)

/-- What is held at the end of a log. -/
def held (log : List ο) : Option α := log.foldl (hold takes gives) none

/-- Something is taken only while nothing is held, and only what is held is given back. -/
def Careful (before : List ο) (entry : ο) : Prop :=
  (∀ a, takes entry = some a → held takes gives before = none) ∧
    ∀ a, gives entry = some a → held takes gives before = some a

theorem held_concat (log : List ο) (entry : ο) :
    held takes gives (log ++ [entry]) = hold takes gives (held takes gives log) entry :=
  List.foldl_concat ..

variable {takes gives} in
/-- Whatever is taken is given back exactly once, but for what is still held. -/
theorem count_takes [DecidableEq α] {log : List ο} (careful : Each (Careful takes gives) log) (a : α) :
    log.countP (takes · = some a) =
      log.countP (gives · = some a) + if held takes gives log = some a then 1 else 0 := by
  -- Induction from the end of the log: the last entry takes, gives back, or does neither.
  induction log using List.reverseRecOn with
  | nil => rfl
  | append_singleton log entry ih =>
    obtain ⟨earlier, free, own⟩ := each_concat_iff.mp careful
    have ih := ih earlier
    rw [List.countP_append, List.countP_append, List.countP_singleton, List.countP_singleton,
      held_concat, hold]
    cases taken : takes entry with
    | some b =>
      -- What is taken cannot be given back by the same entry, since nothing was held.
      rw [free b taken] at ih
      have kept : gives entry = none := by
        cases given : gives entry with
        | none => rfl
        | some d => exact absurd ((free b taken).symm.trans (own d given)) nofun
      simp [kept, ih]
    | none =>
      cases given : gives entry with
      | some b =>
        rw [own b given] at ih
        simp [ih]
      | none => simpa using ih

end Held

/-- One more entry adds what is picked from it, if anything is. -/
theorem filterMap_concat (pick : ο → Option ο') (log : List ο) (entry : ο) :
    (log ++ [entry]).filterMap pick = log.filterMap pick ++ (pick entry).toList := by
  rw [List.filterMap_append]
  cases kept : pick entry <;> simp [kept]

/-- Entries that nothing is picked from add nothing. -/
theorem filterMap_append_quiet (pick : ο → Option ο') (log : List ο) {more : List ο}
    (ignored : ∀ entry ∈ more, pick entry = none) :
    (log ++ more).filterMap pick = log.filterMap pick := by
  rw [List.filterMap_append, List.filterMap_eq_nil_iff.mpr ignored, List.append_nil]

/-- What is picked from the last entry of a log that anything is picked from. -/
def last (pick : ο → Option ο') (log : List ο) : Option ο' := (log.filterMap pick).getLast?

/-- The last entry counts when something is picked from it, and the ones before it otherwise. -/
theorem last_concat (pick : ο → Option ο') (log : List ο) (entry : ο) :
    last pick (log ++ [entry]) = (pick entry).or (last pick log) := by
  rw [last, last, filterMap_concat, List.getLast?_append]
  cases pick entry <;> rfl

/-- Entries that nothing is picked from do not count. -/
theorem last_append (pick : ο → Option ο') (log : List ο) {more : List ο}
    (ignored : ∀ entry ∈ more, pick entry = none) : last pick (log ++ more) = last pick log := by
  rw [last, filterMap_append_quiet pick log ignored, ← last]

/-- From an entry that something is picked from on, it counts unless there is a later one. -/
theorem last_split (pick : ο → Option ο') (first more : List ο) {entry : ο} {picked : ο'}
    (found : pick entry = some picked) :
    last pick (first ++ entry :: more) = some ((last pick more).getD picked) := by
  rw [last, List.filterMap_append, List.filterMap_cons, found, List.getLast?_append, List.getLast?_cons]
  rfl

/-- The entries of a log after the last one that starts over. -/
def since (restarts : ο → Bool) (log : List ο) : List ο :=
  log.rtakeWhile fun entry => !restarts entry

section Since

variable (restarts : ο → Bool)

@[simp] theorem since_nil : since restarts [] = [] := List.rtakeWhile_nil _

/-- What counts is the end of the log. -/
theorem since_suffix (log : List ο) : since restarts log <:+ log := List.rtakeWhile_suffix _ _

/-- One more entry is added to what counts, unless it starts over. -/
theorem since_concat (log : List ο) (last : ο) :
    since restarts (log ++ [last]) = if restarts last = true then [] else since restarts log ++ [last] := by
  -- The library's version tests the condition the other way round.
  unfold since
  rw [List.rtakeWhile_concat]
  cases restarts last <;> rfl

/-- Entries that do not start over are all added to what counts. -/
theorem since_append (log : List ο) {more : List ο} (kept : ∀ entry ∈ more, restarts entry = false) :
    since restarts (log ++ more) = since restarts log ++ more := by
  -- The new entries are added one at a time, from the front.
  induction more using List.reverseRecOn with
  | nil => rw [List.append_nil, List.append_nil]
  | append_singleton rest entry ih =>
    have earlier := ih fun entry member => kept entry (List.mem_append_left _ member)
    rw [← List.append_assoc, since_concat, earlier, kept entry (by simp), List.append_assoc]
    rfl

end Since

/-- What a machine does within a step: moves made one after the other, with what each emits. -/
inductive Path (move : σ → List ο → σ → Prop) : σ → List ο → σ → Prop where
  /-- No move at all. -/
  | stay (s : σ) : Path move s [] s
  /-- One more move at the end. -/
  | extend {s t u : σ} {emitted more : List ο} :
    Path move s emitted t → move t more u → Path move s (emitted ++ more) u

namespace Path

variable {move : σ → List ο → σ → Prop} {s t u : σ} {emitted more : List ο}

theorem single (moved : move s emitted t) : Path move s emitted t := by
  -- One move after no move at all.
  have path := (stay s).extend moved
  rwa [List.nil_append] at path

theorem trans (first : Path move s emitted t) (second : Path move t more u) :
    Path move s (emitted ++ more) u := by
  -- The moves of the second path are appended one by one.
  induction second with
  | stay => rwa [List.append_nil]
  | extend earlier moved ih =>
    rw [← List.append_assoc]
    exact ih.extend moved

/-- A property of the log and the state that every move keeps is kept by a path of moves. -/
theorem keeps {I : List ο → σ → Prop}
    (kept : ∀ {log s emitted t}, I log s → move s emitted t → I (log ++ emitted) t)
    (path : Path move s emitted t) {log : List ο} (held : I log s) : I (log ++ emitted) t := by
  induction path with
  | stay => rwa [List.append_nil]
  | extend earlier moved ih =>
    rw [← List.append_assoc]
    exact kept ih moved

/-- A property every move keeps holds after each run of a machine whose steps are paths of moves. -/
theorem invariant {step : σ → ι → σ × List ο} {I : List ο → σ → Prop}
    (made : ∀ s input, Path move s (step s input).2 (step s input).1)
    (kept : ∀ {log s emitted t}, I log s → move s emitted t → I (log ++ emitted) t)
    {s : σ} (start : I [] s) (inputs : List ι) : I (outputs step s inputs) (final step s inputs) := by
  -- The history rule, with each step taken apart into its moves.
  refine Run.invariant step (P := fun _ log s => I log s) start ?_
  exact fun _ input _ held => (made _ input).keeps kept held

end Path

/--
Forward simulation: when each step of one machine is matched by a run of another that keeps the two
states related and emits what the observer sees, so is every run.
-/
theorem simulation {step : σ → ι → σ × List ο} {step' : σ' → ι' → σ' × List ο'}
    {R : σ → σ' → Prop} {translate : ι → List ι'} {observe : ο → Option ο'}
    (matched : ∀ s s' input, R s s' →
      R (step s input).1 (final step' s' (translate input)) ∧
      (step s input).2.filterMap observe = outputs step' s' (translate input))
    {s : σ} {s' : σ'} (related : R s s') (inputs : List ι) :
    R (final step s inputs) (final step' s' (inputs.flatMap translate)) ∧
    (outputs step s inputs).filterMap observe = outputs step' s' (inputs.flatMap translate) := by
  -- One input is answered by a run, whose end is where the next input is matched.
  induction inputs generalizing s s' with
  | nil => exact ⟨related, rfl⟩
  | cons input rest ih =>
    obtain ⟨related, seen⟩ := matched s s' input related
    obtain ⟨reached, emitted⟩ := ih related
    rw [List.flatMap_cons, final_append, outputs_append, outputs_cons, List.filterMap_append, seen,
      emitted]
    exact ⟨reached, rfl⟩

/--
What brings a run to its end: a measure of how far it is away, and the inputs that are needed to come
closer. An input that is not needed may come as often as it likes.
-/
structure Progress (step : σ → ι → σ × List ο) (kept : σ → Prop) (rank : σ → ℕ) (needs : σ → ι → Prop) :
    Prop where
  keeps : ∀ {s} input, kept s → kept (step s input).1
  helps : ∀ {s input}, kept s → needs s input → rank (step s input).1 < rank s
  /-- No input leads away from the end, or changes what is needed without leading closer. -/
  waits : ∀ {s} input, kept s → rank (step s input).1 < rank s ∨
    rank (step s input).1 = rank s ∧ ∀ other, needs s other → needs (step s input).1 other

namespace Progress

variable {step : σ → ι → σ × List ο} {kept : σ → Prop} {rank : σ → ℕ} {needs : σ → ι → Prop} {s : σ}

theorem rank_le (progress : Progress step kept rank needs) (held : kept s) (inputs : List ι) :
    kept (final step s inputs) ∧ rank (final step s inputs) ≤ rank s := by
  induction inputs generalizing s with
  | nil => exact ⟨held, le_rfl⟩
  | cons input rest ih =>
    obtain ⟨end', le⟩ := ih (progress.keeps input held)
    rcases progress.waits input held with less | ⟨same, _⟩
    · exact ⟨end', le.trans less.le⟩
    · exact ⟨end', le.trans same.le⟩

/-- A round in which something comes that is needed leads closer. -/
theorem round (progress : Progress step kept rank needs) (held : kept s) {inputs : List ι}
    (found : ∃ input ∈ inputs, needs s input) : rank (final step s inputs) < rank s := by
  -- As long as the run is not closer, what was needed at first is needed still.
  induction inputs generalizing s with
  | nil => simp at found
  | cons input rest ih =>
    have next := progress.keeps input held
    obtain ⟨needed, member, need⟩ := found
    rcases progress.waits input held with less | ⟨same, still⟩
    · exact (progress.rank_le next rest).2.trans_lt less
    · rcases List.mem_cons.mp member with rfl | later
      · exact (progress.rank_le next rest).2.trans_lt (progress.helps held need)
      · exact (ih next ⟨needed, later, still needed need⟩).trans_eq same

/-- After as many fair rounds as the measure tells, the run is at its end. -/
theorem rounds (progress : Progress step kept rank needs) (held : kept s) {rounds : List (List ι)}
    (fair : ∀ inputs ∈ rounds, ∀ s, kept s → rank s ≠ 0 → ∃ input ∈ inputs, needs s input)
    (enough : rank s ≤ rounds.length) : rank (final step s rounds.flatten) = 0 := by
  induction rounds generalizing s with
  | nil => exact Nat.le_zero.mp enough
  | cons inputs rest ih =>
    rw [List.flatten_cons, final_append]
    obtain ⟨next, le⟩ := progress.rank_le held inputs
    refine ih next (fun later member => fair later (List.mem_cons_of_mem _ member)) ?_
    rw [List.length_cons] at enough
    by_cases ended : rank s = 0
    · omega
    · have closer := progress.round held (fair inputs List.mem_cons_self s held ended)
      omega

end Progress

end Run
