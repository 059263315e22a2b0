import CanProxy.Lib.Bits
import CanProxy.Obd.Client

/-! Discovery walks the bitmaps of the controller that answered first, and of no other. -/

namespace CanProxy

variable (broadcastId : Option UInt32)

/-- A frame answers a request for a parameter, on behalf of one controller or of any. -/
def Acceptable (ecu : Option UInt32) (pid : UInt8) (f : CanFrame) (r : Response) : Prop :=
  broadcastId ≠ some f.id ∧ isResponseId f.id = true ∧ parseSingleFrame f.data f.dlc = some r ∧
    r.mode = 0x41 ∧ r.pid = pid ∧ ∀ e, ecu = some e → f.id = e

/-- The first acceptable answer on the bus, before it falls silent, and what follows it. -/
def FirstAnswer (ecu : Option UInt32) (pid : UInt8) (bus : List Reception) (f : CanFrame)
    (r : Response) (rest : List Reception) : Prop :=
  ∃ skipped : List CanFrame, bus = skipped.map .frame ++ .frame f :: rest ∧
    (∀ g ∈ skipped, ∀ q, ¬Acceptable broadcastId ecu pid g q) ∧
    Acceptable broadcastId ecu pid f r

namespace Client

/-- The controller a client sticks to, if it has one. -/
def ecu (c : Client) : Option UInt32 := if c.primaryEcu = 0 then none else some c.primaryEcu

/-- The broadcasts among some frames. -/
def broadcasts (frames : List CanFrame) : List CanFrame :=
  frames.filter fun f => broadcastId = some f.id

variable {broadcastId} {c : Client} {pid : UInt8}

/-- An acceptable frame is taken as the answer, and its sender is stuck to. -/
theorem request_accept {f : CanFrame} {r : Response} (rest : List Reception)
    (accepted : Acceptable broadcastId c.ecu pid f r) :
    c.request broadcastId pid (.frame f :: rest) =
      ⟨some r, { c with primaryEcu := f.id }, [], rest⟩ := by
  -- Every test of the loop is one of the conditions, and the last depends on the controller.
  obtain ⟨notBroadcast, response, parsed, mode, named, sender⟩ := accepted
  have mode' : r.mode = kModeCurrentData + kResponseOffset := mode
  obtain ⟨primaryEcu, supported⟩ := c
  unfold ecu at sender
  by_cases fresh : primaryEcu = 0
  · simp [request, notBroadcast, response, parsed, mode', named, fresh]
  · rw [if_neg fresh] at sender
    obtain rfl := sender _ rfl
    simp [request, notBroadcast, response, parsed, mode', named, fresh]

/-- Any other frame is passed over, and handed on when it is a broadcast. -/
theorem request_skip {f : CanFrame} (rest : List Reception)
    (refused : ∀ r, ¬Acceptable broadcastId c.ecu pid f r) :
    c.request broadcastId pid (.frame f :: rest) =
      (c.request broadcastId pid rest).after (broadcasts broadcastId [f]) := by
  by_cases broadcast : broadcastId = some f.id
  · simp [request, broadcasts, broadcast]
  -- Whichever test turns the frame away, the loop goes on with the rest.
  have unsunk : (c.request broadcastId pid rest).after (broadcasts broadcastId [f]) =
      c.request broadcastId pid rest := by
    simp [broadcasts, broadcast, Outcome.after]
  rw [unsunk, request, if_neg broadcast]
  cases response : isResponseId f.id with
  | false => rfl
  | true =>
    cases parsed : parseSingleFrame f.data f.dlc with
    | none => rfl
    | some r =>
      by_cases asked : r.mode = kModeCurrentData + kResponseOffset ∧ r.pid = pid
      · -- Only the sender is left to turn it away, so there is a controller and it is another one.
        have foreign : ∃ e, c.ecu = some e ∧ f.id ≠ e := by
          by_contra own
          push Not at own
          exact refused r ⟨broadcast, response, parsed, asked.1, asked.2, own⟩
        obtain ⟨e, sticks, other⟩ := foreign
        unfold ecu at sticks
        split at sticks
        · cases sticks
        next primary =>
          obtain rfl := Option.some.inj sticks
          simp [asked, primary, other]
      · have turned : r.mode ≠ kModeCurrentData + kResponseOffset ∨ r.pid ≠ pid := by
          by_contra own
          push Not at own
          exact asked own
        simp [turned]

/-- A request returns the first acceptable answer, and consumes nothing after it. -/
theorem request_firstAnswer {bus : List Reception} {f : CanFrame} {r : Response}
    {rest : List Reception} (first : FirstAnswer broadcastId c.ecu pid bus f r rest) :
    ∃ sunk, c.request broadcastId pid bus = ⟨some r, { c with primaryEcu := f.id }, sunk, rest⟩ := by
  obtain ⟨skipped, rfl, refused, accepted⟩ := first
  -- The induction is on the frames passed over before the answer.
  induction skipped with
  | nil => exact ⟨[], request_accept rest accepted⟩
  | cons g skipped ih =>
    rw [List.forall_mem_cons] at refused
    obtain ⟨sunk, taken⟩ := ih refused.2
    refine ⟨broadcasts broadcastId [g] ++ sunk, ?_⟩
    rw [List.map_cons, List.cons_append, request_skip _ refused.1, taken]
    rfl

/-- A request that gets no answer met no acceptable frame, and leaves the client as it was. -/
theorem request_cases (bus : List Reception) :
    ((c.request broadcastId pid bus).result = none ∧
      (c.request broadcastId pid bus).client = c ∧
      ∀ f r rest, ¬FirstAnswer broadcastId c.ecu pid bus f r rest) ∨
    ∃ f r rest, FirstAnswer broadcastId c.ecu pid bus f r rest := by
  induction bus with
  | nil =>
    refine .inl ⟨rfl, rfl, ?_⟩
    rintro f r rest ⟨skipped, delivered, _⟩
    simp at delivered
  | cons reception bus ih =>
    cases reception with
    | silence =>
      refine .inl ⟨rfl, rfl, ?_⟩
      rintro f r rest ⟨skipped, delivered, _⟩
      cases skipped <;> simp at delivered
    | frame g =>
      by_cases accepted : ∃ r, Acceptable broadcastId c.ecu pid g r
      · obtain ⟨r, accepted⟩ := accepted
        exact .inr ⟨g, r, bus, [], rfl, by simp, accepted⟩
      · have refused := not_exists.mp accepted
        rcases ih with ⟨nothing, same, none⟩ | ⟨f, r, rest, skipped, delivered, before, taken⟩
        · rw [request_skip bus refused]
          refine .inl ⟨nothing, same, ?_⟩
          rintro f r rest ⟨skipped, delivered, before, taken⟩
          -- The frame passed over cannot be the answer, so the answer comes later.
          cases skipped with
          | nil =>
            obtain ⟨rfl, _⟩ : g = f ∧ bus = rest := by simpa using delivered
            exact refused r taken
          | cons first skipped =>
            rw [List.forall_mem_cons] at before
            have later : bus = skipped.map .frame ++ .frame f :: rest := by
              simpa using (List.cons.inj delivered).2
            exact none f r rest ⟨skipped, later, before.2, taken⟩
        · refine .inr ⟨f, r, rest, g :: skipped, by rw [delivered]; rfl, ?_, taken⟩
          rw [List.forall_mem_cons]
          exact ⟨refused, before⟩

end Client

/-- There is one first answer, if any. -/
theorem FirstAnswer.unique {broadcastId : Option UInt32} {ecu : Option UInt32} {pid : UInt8}
    {bus rest rest' : List Reception} {f f' : CanFrame} {r r' : Response}
    (first : FirstAnswer broadcastId ecu pid bus f r rest)
    (first' : FirstAnswer broadcastId ecu pid bus f' r' rest') : r = r' ∧ rest = rest' := by
  obtain ⟨skipped, rfl, before, accepted⟩ := first
  obtain ⟨skipped', delivered, before', accepted'⟩ := first'
  -- The frame one of them passes over first is the one the other would have to accept.
  induction skipped generalizing skipped' with
  | nil =>
    cases skipped' with
    | nil =>
      obtain ⟨rfl, rfl⟩ : f = f' ∧ rest = rest' := by simpa using delivered
      exact ⟨Option.some.inj (accepted.2.2.1.symm.trans accepted'.2.2.1), rfl⟩
    | cons g skipped' =>
      obtain ⟨rfl, _⟩ : f = g ∧ rest = skipped'.map .frame ++ .frame f' :: rest' := by
        simpa using delivered
      exact absurd accepted (before' f List.mem_cons_self r)
  | cons g skipped ih =>
    rw [List.forall_mem_cons] at before
    cases skipped' with
    | nil =>
      obtain ⟨rfl, _⟩ : g = f' ∧ skipped.map .frame ++ .frame f :: rest = rest' := by
        simpa using delivered
      exact absurd accepted' (before.1 r')
    | cons g' skipped' =>
      rw [List.forall_mem_cons] at before'
      have later : skipped.map .frame ++ .frame f :: rest =
          skipped'.map .frame ++ .frame f' :: rest' := by
        simpa using (List.cons.inj delivered).2
      exact ih before.2 skipped' later before'.2

section Bitmaps

/-- The number a bitmap spells, its first byte on top. -/
def bitmap (abcd : Vector UInt8 6) : Nat :=
  (getElem abcd 0 Place.six0).toNat * 2 ^ 24 + (getElem abcd 1 Place.six1).toNat * 2 ^ 16 +
    (getElem abcd 2 Place.six2).toNat * 2 ^ 8 + (getElem abcd 3 Place.six3).toNat

/-- The word the code assembles is that number. -/
theorem bitmapWord_toNat (abcd : Vector UInt8 6) : (bitmapWord abcd).toNat = bitmap abcd := by
  -- The code joins the bytes from the other end, which is the same word.
  have reversed (a b c d : UInt32) : a ||| b ||| c ||| d = d ||| c ||| b ||| a := by
    rw [UInt32.or_comm (a ||| b ||| c) d, UInt32.or_comm (a ||| b) c, UInt32.or_comm a b,
      ← UInt32.or_assoc, ← UInt32.or_assoc]
  rw [bitmapWord, reversed, Bits.toNat_join32, bitmap]
  omega

/-- A parameter is listed when its bit is set, counted from the most significant end. -/
theorem mem_supportedPidsFrom (base : UInt8) (abcd : Vector UInt8 6) (pid : UInt8) :
    pid ∈ supportedPidsFrom base abcd ↔
      ∃ n, 1 ≤ n ∧ n ≤ 32 ∧ (bitmap abcd).testBit (32 - n) = true ∧ pid = base + UInt8.ofNat n := by
  have bit (n : Nat) (low : 1 ≤ n) :
      bitmapWord abcd &&& (1 <<< UInt32.ofNat (32 - n)) ≠ 0 ↔
        (bitmap abcd).testBit (32 - n) = true := by
    rw [← bitmapWord_toNat]
    exact Bits.and_single_ne_zero (by omega) _
  simp only [supportedPidsFrom, List.mem_map, List.mem_filter, List.mem_range'_1, decide_eq_true_eq]
  constructor
  · rintro ⟨n, ⟨⟨low, high⟩, set⟩, rfl⟩
    exact ⟨n, low, by omega, (bit n low).mp set, rfl⟩
  · rintro ⟨n, low, high, set, rfl⟩
    exact ⟨n, ⟨⟨low, by omega⟩, (bit n low).mpr set⟩, rfl⟩

/-- A parameter is a bitmap's own number when it is a multiple of thirty-two. -/
theorem isSupportedPid_iff (pid : UInt8) : isSupportedPid pid = true ↔ 32 ∣ pid.toNat := by
  have mask : (pid &&& 0x1F).toNat = pid.toNat % 32 := by
    rw [UInt8.toNat_and]
    exact Nat.and_two_pow_sub_one_eq_mod pid.toNat 5
  rw [isSupportedPid, decide_eq_true_eq, ← UInt8.toNat_inj, mask, Nat.dvd_iff_mod_eq_zero]
  rfl

/-- The next block is asked for when the lowest bit of the fourth byte is set. -/
theorem nextBlockAdvertised_iff (abcd : Vector UInt8 6) :
    nextBlockAdvertised abcd = true ↔ (getElem abcd 3 Place.six3).toNat % 2 = 1 := by
  have low : (getElem abcd 3 Place.six3 &&& 0x01).toNat = (getElem abcd 3 Place.six3).toNat % 2 := by
    rw [UInt8.toNat_and]
    exact Nat.and_one_is_mod _
  rw [nextBlockAdvertised, decide_eq_true_eq, ne_eq, ← UInt8.toNat_inj, low, UInt8.toNat_zero]
  omega

/-- The number of the bitmap of a block. -/
def baseOf (block : Nat) : UInt8 := UInt8.ofNat (0x20 * block)

/-- The parameters advertised by consecutive bitmaps, the first of them that of a given block. -/
def Advertised (block : Nat) (bitmaps : List Response) (pid : UInt8) : Prop :=
  ∃ i r n, bitmaps[i]? = some r ∧ 1 ≤ n ∧ n ≤ 32 ∧ (bitmap r.data).testBit (32 - n) = true ∧
    pid.toNat = 0x20 * (block + i) + n ∧ ¬32 ∣ pid.toNat

/-- The parameters of the first bitmap are those its code lists, but for the next block's number. -/
theorem mem_filter_supportedPidsFrom {block : Nat} (within : block < 7) (r : Response) (pid : UInt8) :
    pid ∈ (supportedPidsFrom (baseOf block) r.data).filter (!isSupportedPid ·) ↔
      Advertised block [r] pid := by
  -- Up to the seventh block, no sum of a base and a bit number wraps around.
  have sum (n : Nat) (high : n ≤ 32) :
      (baseOf block + UInt8.ofNat n).toNat = 0x20 * block + n := by
    rw [UInt8.toNat_add, baseOf, UInt8.toNat_ofNat', UInt8.toNat_ofNat']
    omega
  rw [List.mem_filter, mem_supportedPidsFrom, Bool.not_eq_true', ← Bool.not_eq_true,
    isSupportedPid_iff]
  constructor
  · rintro ⟨⟨n, low, high, set, rfl⟩, value⟩
    exact ⟨0, r, n, rfl, low, high, set, by simpa using sum n high, value⟩
  · rintro ⟨i, r', n, listed, low, high, set, number, value⟩
    obtain ⟨rfl, rfl⟩ : i = 0 ∧ r' = r := by
      cases i with
      | zero => exact ⟨rfl, (Option.some.inj listed).symm⟩
      | succ i => simp at listed
    refine ⟨⟨n, low, high, set, ?_⟩, value⟩
    rw [← UInt8.toNat_inj, sum n high, number, Nat.add_zero]

/-- No bitmap advertises no parameter. -/
theorem not_advertised_nil (block : Nat) (pid : UInt8) : ¬Advertised block [] pid := by
  rintro ⟨i, r, n, listed, _⟩
  simp at listed

/-- A bitmap adds its own parameters to those of the bitmaps after it. -/
theorem advertised_cons (block : Nat) (r : Response) (bitmaps : List Response) (pid : UInt8) :
    Advertised block (r :: bitmaps) pid ↔
      Advertised block [r] pid ∨ Advertised (block + 1) bitmaps pid := by
  constructor
  · rintro ⟨i, r', n, listed, low, high, set, number, value⟩
    cases i with
    | zero => exact .inl ⟨0, r', n, listed, low, high, set, number, value⟩
    | succ i => exact .inr ⟨i, r', n, listed, low, high, set, by omega, value⟩
  · rintro (⟨i, r', n, listed, low, high, set, number, value⟩ |
      ⟨i, r', n, listed, low, high, set, number, value⟩)
    · cases i with
      | zero => exact ⟨0, r', n, listed, low, high, set, number, value⟩
      | succ i => simp at listed
    · exact ⟨i + 1, r', n, listed, low, high, set, by omega, value⟩

end Bitmaps

/--
The bitmaps of one controller along the chain of blocks, from a block on.

The chain goes on while a bitmap of at least four bytes advertises the next block, in the lowest bit of
its fourth byte, up to the seventh.
-/
inductive Chain (ecu : UInt32) : Nat → List Reception → List Response → Prop where
  /-- Seven blocks were walked. -/
  | full {block : Nat} {bus : List Reception} (full : 7 ≤ block) : Chain ecu block bus []
  /-- The controller has no answer for the block, or one that is too short. -/
  | refused {block : Nat} {bus : List Reception} (within : block < 7)
      (short : ∀ f r rest, FirstAnswer broadcastId (some ecu) (baseOf block) bus f r rest →
        r.len < 4) : Chain ecu block bus []
  /-- The bitmap advertises no further block. -/
  | last {block : Nat} {bus rest : List Reception} {f : CanFrame} {r : Response}
      (within : block < 7)
      (answer : FirstAnswer broadcastId (some ecu) (baseOf block) bus f r rest) (long : 4 ≤ r.len)
      (closes : (getElem r.data 3 Place.six3).toNat % 2 = 0) : Chain ecu block bus [r]
  /-- The bitmap advertises the next block, which is asked for after it. -/
  | next {block : Nat} {bus rest : List Reception} {f : CanFrame} {r : Response}
      {more : List Response} (within : block < 7)
      (answer : FirstAnswer broadcastId (some ecu) (baseOf block) bus f r rest) (long : 4 ≤ r.len)
      (goesOn : (getElem r.data 3 Place.six3).toNat % 2 = 1) (chain : Chain ecu (block + 1) rest more) :
      Chain ecu block bus (r :: more)

/-- The chain of bitmaps is determined by the bus. -/
theorem Chain.unique {ecu : UInt32} {block : Nat} {bus : List Reception}
    {bitmaps other : List Response} (chain : Chain broadcastId ecu block bus bitmaps)
    (chain' : Chain broadcastId ecu block bus other) : bitmaps = other := by
  -- The induction is on the first chain, and what its step met decides the step of the second.
  induction chain generalizing other with
  | full full =>
    cases chain' with
    | full _ => rfl
    | refused _ _ => rfl
    | last within _ _ _ => omega
    | next within _ _ _ _ => omega
  | refused within short =>
    cases chain' with
    | full _ => rfl
    | refused _ _ => rfl
    | last _ answer long _ => exact absurd (short _ _ _ answer) (not_lt.mpr long)
    | next _ answer long _ _ => exact absurd (short _ _ _ answer) (not_lt.mpr long)
  | last within answer long closes =>
    cases chain' with
    | full full => omega
    | refused _ short => exact absurd (short _ _ _ answer) (not_lt.mpr long)
    | last _ answer' _ _ => rw [(answer.unique answer').1]
    | next _ answer' _ goesOn _ =>
      rw [(answer.unique answer').1, goesOn] at closes
      cases closes
  | next within answer long goesOn chain ih =>
    cases chain' with
    | full full => omega
    | refused _ short => exact absurd (short _ _ _ answer) (not_lt.mpr long)
    | last _ answer' _ closes =>
      rw [(answer.unique answer').1, closes] at goesOn
      cases goesOn
    | next _ answer' _ _ chain' =>
      obtain ⟨rfl, rfl⟩ := answer.unique answer'
      rw [ih chain']

/-- A chain ends with the seventh block at the latest. -/
theorem Chain.length_le {ecu : UInt32} {block : Nat} {bus : List Reception}
    {bitmaps : List Response} (chain : Chain broadcastId ecu block bus bitmaps) :
    bitmaps.length ≤ 7 - block := by
  induction chain with
  | full _ => exact Nat.zero_le _
  | refused _ _ => exact Nat.zero_le _
  | last within _ _ _ =>
    rw [List.length_singleton]
    omega
  | next within _ _ _ _ ih =>
    rw [List.length_cons]
    omega

namespace Client

variable {broadcastId}

/-- The base of the next block. -/
theorem baseOf_succ (block : Nat) : baseOf block + 0x20 = baseOf (block + 1) := by
  rw [← UInt8.toNat_inj, UInt8.toNat_add, baseOf, baseOf, UInt8.toNat_ofNat', UInt8.toNat_ofNat']
  change (0x20 * block % 256 + 32) % 256 = 0x20 * (block + 1) % 256
  omega

/-- The outcome of a walk: the parameters found before it, and those of a chain of bitmaps. -/
def Collects (broadcastId : Option UInt32) (ecu : UInt32) (block : Nat) (found : Finset UInt8)
    (bus : List Reception) (o : Outcome Bool) : Prop :=
  o.result = true ∧ ∃ bitmaps, Chain broadcastId ecu block bus bitmaps ∧
    ∀ pid, pid ∈ o.client.supported ↔ pid ∈ found ∨ Advertised block bitmaps pid

/-- The parameters a bitmap adds to those found before it. -/
def adding (found : Finset UInt8) (block : Nat) (r : Response) : Finset UInt8 :=
  found ∪ ((supportedPidsFrom (baseOf block) r.data).filter (!isSupportedPid ·)).toFinset

theorem mem_adding {block : Nat} (within : block < 7) (found : Finset UInt8) (r : Response)
    (pid : UInt8) : pid ∈ adding found block r ↔ pid ∈ found ∨ Advertised block [r] pid := by
  rw [adding, Finset.mem_union, List.mem_toFinset, mem_filter_supportedPidsFrom within]

/-- A long enough answer adds its bitmap, and the walk goes on where that says so. -/
theorem walk_answered {remaining block : Nat} {found : Finset UInt8} {c c' : Client}
    {bus rest : List Reception} {r : Response} {sunk : List CanFrame}
    (taken : c.request broadcastId (baseOf block) bus = ⟨some r, c', sunk, rest⟩)
    (long : 4 ≤ r.len) :
    walk broadcastId (remaining + 1) block (baseOf block) found c bus =
      if nextBlockAdvertised r.data then
        (walk broadcastId remaining (block + 1) (baseOf (block + 1)) (adding found block r) c'
          rest).after sunk
      else ⟨true, { c' with supported := adding found block r }, sunk, rest⟩ := by
  rw [← baseOf_succ, walk]
  simp only [taken, if_neg (not_lt.mpr long)]
  rfl

/-- What the rest of a walk collects, an answer before it adds to. -/
theorem collects_answered {ecu : UInt32} {remaining block : Nat} (within : block < 7)
    {found : Finset UInt8} {c c' : Client} {bus rest : List Reception} {f : CanFrame}
    {r : Response} {sunk : List CanFrame}
    (taken : c.request broadcastId (baseOf block) bus = ⟨some r, c', sunk, rest⟩)
    (answer : FirstAnswer broadcastId (some ecu) (baseOf block) bus f r rest) (long : 4 ≤ r.len)
    (collects : Collects broadcastId ecu (block + 1) (adding found block r) rest
      (walk broadcastId remaining (block + 1) (baseOf (block + 1)) (adding found block r) c' rest)) :
    Collects broadcastId ecu block found bus
      (walk broadcastId (remaining + 1) block (baseOf block) found c bus) := by
  rw [walk_answered taken long]
  have advertised := nextBlockAdvertised_iff r.data
  cases goesOn : nextBlockAdvertised r.data with
  | false =>
    rw [goesOn] at advertised
    refine ⟨rfl, [r], .last within answer long (by simpa using advertised), fun pid => ?_⟩
    exact mem_adding within found r pid
  | true =>
    obtain ⟨done, bitmaps, chain, listed⟩ := collects
    refine ⟨done, r :: bitmaps, .next within answer long (advertised.mp goesOn) chain, fun pid => ?_⟩
    rw [advertised_cons, ← or_assoc, ← mem_adding within]
    exact listed pid

/-- From the second block on, the walk adds what the controller's remaining bitmaps advertise. -/
theorem walk_collects {ecu : UInt32} (known : ecu ≠ 0) (remaining block : Nat)
    (together : block + remaining = 7) (later : 1 ≤ block) (found : Finset UInt8) (c : Client)
    (sticks : c.primaryEcu = ecu) (bus : List Reception) :
    Collects broadcastId ecu block found bus
      (walk broadcastId remaining block (baseOf block) found c bus) := by
  -- The induction is on the blocks that are left.
  induction remaining generalizing block found c bus with
  | zero =>
    refine ⟨rfl, [], .full (by omega), fun pid => ?_⟩
    simp [walk, not_advertised_nil]
  | succ remaining ih =>
    have own : c.ecu = some ecu := by rw [Client.ecu, sticks, if_neg known]
    have within : block < 7 := by omega
    have notFirst : block ≠ 0 := by omega
    rcases @request_cases broadcastId c (baseOf block) bus with
      ⟨none, same, absent⟩ | ⟨f, r, rest, first⟩
    · rw [own] at absent
      refine ⟨by simp [walk, none, notFirst], [], .refused within ?_, fun pid => ?_⟩
      · intro f r rest first
        exact absurd first (absent f r rest)
      · simp [walk, none, notFirst, not_advertised_nil]
    obtain ⟨sunk, taken⟩ := request_firstAnswer first
    rw [own] at first
    have sender : f.id = ecu := by
      obtain ⟨_, _, _, accepted⟩ := first
      exact accepted.2.2.2.2.2 ecu rfl
    by_cases long : 4 ≤ r.len
    · exact collects_answered within taken first long
        (ih (block + 1) (by omega) (by omega) _ _ sender rest)
    · -- A short answer ends the walk just as a missing one does.
      have short := not_le.mp long
      refine ⟨by simp [walk, taken, notFirst, short], [], .refused within ?_, fun pid => ?_⟩
      · intro f' r' rest' first'
        rwa [← (first.unique first').1]
      · simp [walk, taken, notFirst, short, not_advertised_nil]

/-- Until a controller has answered, the first answer is that of its own sender. -/
theorem firstAnswer_own {pid : UInt8} {bus rest : List Reception} {f : CanFrame} {r : Response}
    (first : FirstAnswer broadcastId none pid bus f r rest) :
    FirstAnswer broadcastId (some f.id) pid bus f r rest := by
  obtain ⟨skipped, delivered, before, notBroadcast, response, parsed, mode, named, _⟩ := first
  -- What no controller at all can be credited with, this one cannot either.
  refine ⟨skipped, delivered, fun g passed q accepted => ?_,
    notBroadcast, response, parsed, mode, named, fun e same => Option.some.inj same⟩
  obtain ⟨notBroadcast', response', parsed', mode', named', _⟩ := accepted
  exact before g passed q
    ⟨notBroadcast', response', parsed', mode', named', fun e none => by cases none⟩

/-- A first answer of at least four bytes starts a chain of its sender's bitmaps. -/
theorem discover_answered (c : Client) {bus rest : List Reception} {f : CanFrame} {r : Response}
    (first : FirstAnswer broadcastId none pidSupported00 bus f r rest) (long : 4 ≤ r.len) :
    Collects broadcastId f.id 0 ∅ bus (c.discover broadcastId bus) := by
  -- The walk starts without a controller, and this answer is what it sticks to from then on.
  obtain ⟨sunk, taken⟩ := @request_firstAnswer broadcastId { c with primaryEcu := 0 } _ _ _ _ _ first
  have known : f.id ≠ 0 := by
    obtain ⟨_, _, _, _, response, _⟩ := first
    intro zero
    rw [zero] at response
    exact absurd response (by decide)
  exact collects_answered (by omega) taken (firstAnswer_own first) long
    (walk_collects known 6 1 rfl (le_refl 1) _ _ rfl rest)

/-- Without one, discovery fails and leaves the supported parameters alone. -/
theorem discover_unanswered (c : Client) {bus : List Reception}
    (short : ∀ f r rest, FirstAnswer broadcastId none pidSupported00 bus f r rest → r.len < 4) :
    (c.discover broadcastId bus).result = false ∧
      (c.discover broadcastId bus).client.supported = c.supported := by
  rcases @request_cases broadcastId { c with primaryEcu := 0 } pidSupported00 bus with
    ⟨none, same, _⟩ | ⟨f, r, rest, first⟩
  · simp [discover, walk, none, same]
  · obtain ⟨sunk, taken⟩ := request_firstAnswer first
    simp [discover, walk, taken, short f r rest first]

/--
Discovery succeeds when some controller answers the first bitmap with at least four bytes; then the
supported parameters are those of the chain of that controller's bitmaps, and otherwise they stay.
-/
theorem discover_supported (broadcastId : Option UInt32) (c : Client) (bus : List Reception) :
    ((c.discover broadcastId bus).result = true ↔
      ∃ f r rest, FirstAnswer broadcastId none pidSupported00 bus f r rest ∧ 4 ≤ r.len) ∧
    (∀ f r rest, FirstAnswer broadcastId none pidSupported00 bus f r rest → 4 ≤ r.len →
      ∃ bitmaps, Chain broadcastId f.id 0 bus bitmaps ∧ bitmaps.length ≤ 7 ∧
        (∀ other, Chain broadcastId f.id 0 bus other → other = bitmaps) ∧
        ∀ pid, pid ∈ (c.discover broadcastId bus).client.supported ↔ Advertised 0 bitmaps pid) ∧
    ((c.discover broadcastId bus).result = false →
      (c.discover broadcastId bus).client.supported = c.supported) := by
  by_cases answered : ∃ f r rest, FirstAnswer broadcastId none pidSupported00 bus f r rest ∧ 4 ≤ r.len
  · have ⟨f, r, rest, first, long⟩ := answered
    have found := (discover_answered c first long).1
    refine ⟨iff_of_true found answered, fun f r rest first long => ?_, fun failed => ?_⟩
    · obtain ⟨_, bitmaps, chain, listed⟩ := discover_answered c first long
      refine ⟨bitmaps, chain, chain.length_le broadcastId,
        fun other chain' => chain'.unique broadcastId chain, fun pid => ?_⟩
      simpa using listed pid
    · rw [found] at failed
      cases failed
  · have short : ∀ f r rest, FirstAnswer broadcastId none pidSupported00 bus f r rest → r.len < 4 :=
      fun f r rest first => not_le.mp fun long => answered ⟨f, r, rest, first, long⟩
    obtain ⟨failed, same⟩ := discover_unanswered c short
    refine ⟨iff_of_false (by simp [failed]) answered, fun f r rest first long => ?_, fun _ => same⟩
    exact absurd (short f r rest first) (not_lt.mpr long)

-- A second controller answers in between, and neither of its bitmaps contributes.
example :
    ((Client.mk 0 ∅).discover none
      [.frame ⟨0x7E8, 8, #v[0x06, 0x41, 0x00, 0x08, 0x08, 0x00, 0x01, 0x00]⟩,
        .frame ⟨0x7E9, 8, #v[0x06, 0x41, 0x00, 0xFF, 0xFF, 0xFF, 0xFF, 0x00]⟩,
        .frame ⟨0x7E9, 8, #v[0x06, 0x41, 0x20, 0xFF, 0xFF, 0xFF, 0xFF, 0x00]⟩,
        .frame ⟨0x7E8, 8, #v[0x06, 0x41, 0x20, 0x00, 0x02, 0x00, 0x00, 0x00]⟩]).client.supported =
      {0x05, 0x0D, 0x2F} := by
  decide

end Client

end CanProxy
