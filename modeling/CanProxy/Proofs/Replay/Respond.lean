import CanProxy.Proofs.Obd.Discovery
import CanProxy.Replay.Respond
import CanProxy.Replay.Session

/-! Which response is kept for a parameter, and what a recorded client leaves of the answers it accepts. -/

namespace CanProxy.Replay

/-- The record is a request for the parameter. -/
def asksPid (pid : UInt8) (r : CanFrame) : Bool := isRequest r && getElem r.data 2 Place.eight2 = pid

/-- Where the response kept for a parameter is recorded: the pair of the last request that has one. -/
def storedAt (pid : UInt8) : List CanFrame → Option Nat
  | [] => none
  | r :: rest =>
    ((storedAt pid rest).map (· + 1)).or
      (if asksPid pid r then ((rest.take 15).findIdx? (namesPid pid)).map (· + 1) else none)

/-- A record of the log has a property. -/
def At (P : CanFrame → Bool) (log : List CanFrame) (i : Nat) : Prop :=
  ∃ r, log[i]? = some r ∧ P r = true

/-- A request at a position has a response that carries its parameter within fifteen records. -/
def Answerable (pid : UInt8) (log : List CanFrame) (k : Nat) : Prop :=
  ∃ j, k < j ∧ j ≤ k + 15 ∧ At (namesPid pid) log j

/--
A response is the first to carry the parameter after a request for it, at most fifteen records on, and no
request after it is followed by one as closely.
-/
def Paired (pid : UInt8) (log : List CanFrame) (a : Nat) : Prop :=
  (∃ i, At (asksPid pid) log i ∧ i < a ∧ a ≤ i + 15 ∧
    ∀ j, i < j → j < a → ¬At (namesPid pid) log j) ∧
  ∀ k, a < k → At (asksPid pid) log k → ¬Answerable pid log k

section Positions

variable {P : CanFrame → Bool} {r : CanFrame} {rest : List CanFrame}

theorem at_cons_zero : At P (r :: rest) 0 ↔ P r = true := by
  simp [At]

/-- A position among the first records of a list is a position of the list. -/
theorem at_take {i n : Nat} : At P (rest.take n) i ↔ i < n ∧ At P rest i := by
  unfold At
  rw [List.getElem?_take]
  split
  next within => simp [within]
  next beyond => simp [beyond]

/-- The search through a window finds the first record with the property, if the window has one. -/
theorem window_eq_some {d : Nat} :
    (rest.take 15).findIdx? P = some d ↔
      d < 15 ∧ At P rest d ∧ ∀ j, j < d → ¬At P rest j := by
  have found : (rest.take 15).findIdx? P = some d ↔
      At P (rest.take 15) d ∧ ∀ j, j < d → ¬At P (rest.take 15) j := by
    rw [List.findIdx?_eq_some_iff_getElem]
    constructor
    · rintro ⟨within, holds, before⟩
      refine ⟨⟨_, List.getElem?_eq_getElem within, holds⟩, ?_⟩
      rintro j earlier ⟨a, read, property⟩
      rw [List.getElem?_eq_getElem (earlier.trans within)] at read
      exact before j earlier (Option.some.inj read ▸ property)
    · rintro ⟨⟨a, read, holds⟩, before⟩
      obtain ⟨within, rfl⟩ := List.getElem?_eq_some_iff.mp read
      refine ⟨within, holds, fun j earlier property => before j earlier ?_⟩
      exact ⟨_, List.getElem?_eq_getElem (earlier.trans within), property⟩
  rw [found, at_take]
  constructor
  · rintro ⟨⟨within, holds⟩, before⟩
    exact ⟨within, holds, fun j earlier property =>
      before j earlier (at_take.mpr ⟨earlier.trans within, property⟩)⟩
  · rintro ⟨within, holds, before⟩
    exact ⟨⟨within, holds⟩, fun j earlier property => before j earlier (at_take.mp property).2⟩

/-- A search that finds nothing means that the window has no such record. -/
theorem window_eq_none :
    (rest.take 15).findIdx? P = none ↔ ∀ j, j < 15 → ¬At P rest j := by
  rw [List.findIdx?_eq_none_iff]
  constructor
  · rintro nothing j within ⟨a, read, property⟩
    have member : a ∈ rest.take 15 :=
      List.mem_of_getElem? (List.getElem?_take_of_lt within ▸ read)
    rw [nothing a member] at property
    cases property
  · intro nothing a member
    obtain ⟨j, read⟩ := List.mem_iff_getElem?.mp member
    by_contra property
    obtain ⟨within, named⟩ := at_take.mp ⟨a, read, by simpa using property⟩
    exact nothing j within named

end Positions

section Stored

variable {pid : UInt8} {r : CanFrame} {rest : List CanFrame}

theorem answerable_succ (k : Nat) : Answerable pid (r :: rest) (k + 1) ↔ Answerable pid rest k := by
  -- A position after the shifted request is the shift of a position after it.
  constructor
  · rintro ⟨j, after, within, names⟩
    obtain ⟨j, rfl⟩ : ∃ j', j = j' + 1 := ⟨j - 1, by omega⟩
    exact ⟨j, by omega, by omega, names⟩
  · rintro ⟨j, after, within, names⟩
    exact ⟨j + 1, by omega, by omega, names⟩

theorem answerable_zero :
    Answerable pid (r :: rest) 0 ↔ ∃ j, j < 15 ∧ At (namesPid pid) rest j := by
  constructor
  · rintro ⟨j, after, within, names⟩
    obtain ⟨j, rfl⟩ : ∃ j', j = j' + 1 := ⟨j - 1, by omega⟩
    exact ⟨j, by omega, names⟩
  · rintro ⟨j, within, names⟩
    exact ⟨j + 1, by omega, by omega, names⟩

/-- Nothing is stored exactly when no request for the parameter is answerable. -/
theorem storedAt_eq_none {log : List CanFrame} :
    storedAt pid log = none ↔ ∀ k, At (asksPid pid) log k → ¬Answerable pid log k := by
  induction log with
  | nil => simp [storedAt, At]
  | cons r rest ih =>
    -- The first record is a request without an answer in its window, or not a request at all.
    have first : (if asksPid pid r then ((rest.take 15).findIdx? (namesPid pid)).map (· + 1)
        else none) = none ↔ (asksPid pid r = true → ¬Answerable pid (r :: rest) 0) := by
      rw [answerable_zero]
      by_cases asks : asksPid pid r = true
      · rw [if_pos asks, Option.map_eq_none_iff, window_eq_none]
        simp [asks]
      · simp [asks]
    rw [storedAt, Option.or_eq_none_iff, Option.map_eq_none_iff, ih, first]
    constructor
    · rintro ⟨later, now⟩ k asks
      cases k with
      | zero => exact now (at_cons_zero.mp asks)
      | succ k =>
        rw [answerable_succ]
        exact later k asks
    · intro nothing
      refine ⟨fun k asks => ?_, fun asks => nothing 0 (at_cons_zero.mpr asks)⟩
      rw [← answerable_succ]
      exact nothing (k + 1) asks

/-- No record is both a request and a response. -/
theorem not_namesPid_of_asksPid {r : CanFrame} (asks : asksPid pid r = true) :
    ¬namesPid pid r = true := by
  -- The two ranges of identifiers do not meet.
  intro names
  simp only [asksPid, isRequest, isObdRequest, namesPid, isObdResponse, Bool.and_eq_true,
    Bool.or_eq_true, decide_eq_true_eq, UInt32.le_iff_toNat_le] at asks names
  have low := names.1.1.1
  rcases asks.1.1 with functional | physical
  · rw [functional] at low
    exact absurd low (by decide)
  · have high := physical.2
    simp only [UInt32.reduceToNat] at low high
    omega

/-- A record in front shifts a pair. -/
theorem Paired.cons {a : Nat} (paired : Paired pid rest a) : Paired pid (r :: rest) (a + 1) := by
  obtain ⟨⟨i, asks, before, within, first⟩, later⟩ := paired
  refine ⟨⟨i + 1, asks, by omega, by omega, fun j after earlier => ?_⟩, fun k after asks => ?_⟩
  · obtain ⟨j, rfl⟩ : ∃ j', j = j' + 1 := ⟨j - 1, by omega⟩
    exact first j (by omega) (by omega)
  · obtain ⟨k, rfl⟩ : ∃ k', k = k' + 1 := ⟨k - 1, by omega⟩
    rw [answerable_succ]
    exact later k (by omega) asks

/-- A pair is one of the records behind the first, or the first record is its request. -/
theorem Paired.of_cons {a : Nat} (paired : Paired pid (r :: rest) (a + 1)) :
    Paired pid rest a ∨
      asksPid pid r = true ∧ a < 15 ∧ ∀ j, j < a → ¬At (namesPid pid) rest j := by
  obtain ⟨⟨i, asks, before, within, first⟩, later⟩ := paired
  cases i with
  | zero =>
    exact .inr ⟨at_cons_zero.mp asks, by omega, fun j earlier => first (j + 1) (by omega) (by omega)⟩
  | succ i =>
    refine .inl ⟨⟨i, asks, by omega, by omega, fun j after earlier => ?_⟩, fun k after asks => ?_⟩
    · exact first (j + 1) (by omega) (by omega)
    · rw [← answerable_succ (r := r)]
      exact later (k + 1) (by omega) asks

/-- A response that is first after one request and last to be answerable is stored for another too. -/
theorem Paired.eq_of_first {a b : Nat} (names : At (namesPid pid) rest a)
    (unnamed : ∀ j, j < a → ¬At (namesPid pid) rest j)
    (later : ∀ k, a < k → At (asksPid pid) rest k → ¬Answerable pid rest k)
    (named : At (namesPid pid) rest b) (paired : Paired pid rest b) : b = a := by
  obtain ⟨⟨i, asks, before, within, first⟩, _⟩ := paired
  rcases lt_trichotomy b a with earlier | same | after
  · exact absurd named (unnamed b earlier)
  · exact same
  -- Its request would have to lie before, at, or after the first response.
  · rcases lt_trichotomy i a with earlier | rfl | beyond
    · exact absurd names (first a earlier after)
    · obtain ⟨r, read, asks⟩ := asks
      obtain ⟨r', read', names⟩ := names
      obtain rfl := Option.some.inj (read.symm.trans read')
      exact absurd names (not_namesPid_of_asksPid asks)
    · exact absurd ⟨b, before, within, named⟩ (later i beyond asks)

/-- The stored position is the response that is paired. -/
theorem storedAt_eq_some {log : List CanFrame} {a : Nat} :
    storedAt pid log = some a ↔ At (namesPid pid) log a ∧ Paired pid log a := by
  -- The induction is on the log, from its end to its beginning as the last pair wins.
  induction log generalizing a with
  | nil => simp [storedAt, At]
  | cons r rest ih =>
    rw [storedAt, Option.or_eq_some_iff]
    cases a with
    | zero =>
      refine iff_of_false ?_ ?_
      · rintro (behind | ⟨_, here⟩)
        · simp at behind
        · split at here
          · obtain ⟨d, _, shifted⟩ := Option.map_eq_some_iff.mp here
            omega
          · cases here
      · rintro ⟨_, ⟨i, _, before, _⟩, _⟩
        omega
    | succ a =>
      have behind : (storedAt pid rest).map (· + 1) = some (a + 1) ↔ storedAt pid rest = some a := by
        simp
      rw [behind, ih, Option.map_eq_none_iff]
      constructor
      · rintro (⟨names, paired⟩ | ⟨nothing, here⟩)
        · exact ⟨names, paired.cons⟩
        · split at here
          next asks =>
            obtain ⟨d, found, shifted⟩ := Option.map_eq_some_iff.mp here
            obtain rfl : d = a := by omega
            obtain ⟨within, names, unnamed⟩ := window_eq_some.mp found
            refine ⟨names, ⟨0, at_cons_zero.mpr asks, by omega, by omega, ?_⟩, ?_⟩
            · intro j after earlier
              obtain ⟨j, rfl⟩ : ∃ j', j = j' + 1 := ⟨j - 1, by omega⟩
              exact unnamed j (by omega)
            · intro k after asks
              obtain ⟨k, rfl⟩ : ∃ k', k = k' + 1 := ⟨k - 1, by omega⟩
              rw [answerable_succ]
              exact storedAt_eq_none.mp nothing k asks
          · cases here
      · rintro ⟨names, paired⟩
        have later (k : Nat) (after : a < k) (asks : At (asksPid pid) rest k) :
            ¬Answerable pid rest k := by
          rw [← answerable_succ (r := r)]
          exact paired.2 (k + 1) (by omega) asks
        rcases paired.of_cons with paired | ⟨asks, within, unnamed⟩
        · exact .inl ⟨names, paired⟩
        · cases stored : storedAt pid rest with
          | none =>
            refine .inr ⟨rfl, ?_⟩
            rw [if_pos asks, window_eq_some.mpr ⟨within, names, unnamed⟩]
            rfl
          | some b =>
            obtain ⟨named, pairedRest⟩ := ih.mp stored
            have namesRest : At (namesPid pid) rest a := names
            obtain rfl := Paired.eq_of_first namesRest unnamed later named pairedRest
            exact .inl ⟨named, pairedRest⟩

end Stored

/-- What is kept for a parameter is the record at the stored position. -/
theorem pair_eq (recs : List CanFrame) (kept : UInt8 → Option CanFrame) (pid : UInt8) :
    pair recs kept pid = ((storedAt pid recs).bind (recs[·]?)).or (kept pid) := by
  -- The induction is on the log, and its claim is about every map the scan may start from.
  induction recs generalizing kept with
  | nil => rfl
  | cons r rest ih =>
    have shift (o : Option Nat) : (o.map (· + 1)).bind ((r :: rest)[·]?) = o.bind (rest[·]?) := by
      cases o <;> rfl
    by_cases request : isRequest r = true
    · have search := @List.find?_eq_bind_findIdx?_getElem? _ (rest.take 15) (namesPid r.data[2])
      rw [pair, if_pos request]
      cases found : (rest.take 15).findIdx? (namesPid r.data[2]) with
      | none =>
        -- A request without a response in its window changes neither the map nor the positions.
        rw [found] at search
        rw [search, Option.bind_none]
        have unpaired : (if asksPid pid r then ((rest.take 15).findIdx? (namesPid pid)).map (· + 1)
            else none) = none := by
          split
          next asks =>
            obtain rfl : r.data[2] = pid := by simpa [asksPid, request] using asks
            rw [found, Option.map_none]
          · rfl
        dsimp only
        rw [ih, storedAt, unpaired, Option.or_none, shift]
      | some d =>
        obtain ⟨within, ⟨a, read, names⟩, _⟩ := window_eq_some.mp found
        rw [found, Option.bind_some, List.getElem?_take_of_lt within, read] at search
        rw [search]
        dsimp only
        rw [ih, storedAt]
        by_cases same : r.data[2] = pid
        · -- The pair of a later request for the parameter still wins.
          subst same
          have asks : asksPid r.data[2] r = true := by simp [asksPid, request]
          rw [if_pos asks, found, Function.update_self]
          cases stored : storedAt r.data[2] rest with
          | none => simp [read]
          | some b =>
            obtain ⟨⟨later, kept, _⟩, _⟩ := storedAt_eq_some.mp stored
            simp [kept]
        · have asks : ¬asksPid pid r = true := by simp [asksPid, same]
          rw [if_neg asks, Option.or_none, shift, Function.update_of_ne (Ne.symm same)]
    · have asks : ¬asksPid pid r = true := by simp [asksPid, request]
      rw [pair, if_neg request, ih, storedAt, if_neg asks, Option.or_none, shift]

theorem answers_eq (recs : List CanFrame) (pid : UInt8) :
    answers recs pid = (storedAt pid recs).bind (recs[·]?) := by
  rw [answers, pair_eq, Option.or_none]

section Sessions

variable {broadcastId : Option UInt32}

/-- An acceptable answer names the parameter it answers. -/
theorem namesPid_of_acceptable {ecu : Option UInt32} {pid : UInt8} {f : CanFrame} {r : Response}
    (accepted : Acceptable broadcastId ecu pid f r) : namesPid pid f = true := by
  obtain ⟨_, response, parsed, _, named, _⟩ := accepted
  obtain ⟨long, -, -, -, -, -, -, same⟩ := parseSingleFrame_some parsed
  have response' : isObdResponse f.id = true := response
  simp [namesPid, response', long, ← same, named]

/-- The frames consumed up to an answer are those passed over and the answer itself. -/
theorem framesOf_consumed (skipped : List CanFrame) (f : CanFrame) (rest : List Reception) :
    framesOf ((skipped.map Reception.frame ++ Reception.frame f :: rest).take
      ((skipped.map Reception.frame ++ Reception.frame f :: rest).length - rest.length)) =
        skipped ++ [f] := by
  have split : skipped.map Reception.frame ++ Reception.frame f :: rest =
      (skipped ++ [f]).map Reception.frame ++ rest := by
    simp
  have frames (l : List CanFrame) : framesOf (l.map Reception.frame) = l := by
    simp [framesOf, List.filterMap_map]
  rw [split, List.length_append, Nat.add_sub_cancel, List.take_left', frames]
  rfl

end Sessions

end CanProxy.Replay
