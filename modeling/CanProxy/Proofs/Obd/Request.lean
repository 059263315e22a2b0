import CanProxy.Lib.Run
import CanProxy.Proofs.Obd.Discovery

/-! What a request takes from the bus, and whose answers a client takes between two discoveries. -/

namespace CanProxy

/-- The frame of a reception, if there is one. -/
def Reception.frame? : Reception → Option CanFrame
  | .frame f => some f
  | .silence => none

/-- The frames among some receptions. -/
def framesIn (receptions : List Reception) : List CanFrame := receptions.filterMap Reception.frame?

theorem framesIn_map (frames : List CanFrame) : framesIn (frames.map .frame) = frames := by
  rw [framesIn, List.filterMap_map]
  exact List.filterMap_some

/-- Broadcasts handed on earlier come before those handed on later. -/
theorem Outcome.after_after {α : Type} (first second : List CanFrame) (o : Outcome α) :
    (o.after second).after first = o.after (first ++ second) := by
  unfold Outcome.after
  rw [List.append_assoc]

/-- There is one frame that is the first answer, if any. -/
theorem FirstAnswer.same_frame {broadcastId ecu : Option UInt32} {pid : UInt8}
    {bus rest rest' : List Reception} {f f' : CanFrame} {r r' : Response}
    (first : FirstAnswer broadcastId ecu pid bus f r rest)
    (first' : FirstAnswer broadcastId ecu pid bus f' r' rest') : f = f' := by
  -- The same receptions follow both, so they stand at the same place of the bus.
  obtain ⟨-, rfl⟩ := first.unique first'
  obtain ⟨skipped, delivered, -⟩ := first
  obtain ⟨skipped', delivered', -⟩ := first'
  rw [delivered] at delivered'
  have same : skipped.map Reception.frame ++ [.frame f] = skipped'.map Reception.frame ++ [.frame f'] := by
    apply List.append_cancel_right
    simpa using delivered'
  have last := (List.append_inj' same rfl).2
  exact Reception.frame.inj (List.singleton_inj.mp last)

namespace Client

variable {broadcastId : Option UInt32} {c : Client} {pid : UInt8}

theorem broadcasts_append (first second : List CanFrame) :
    broadcasts broadcastId (first ++ second) =
      broadcasts broadcastId first ++ broadcasts broadcastId second :=
  List.filter_append ..

/-- Frames that are no answer are passed over one after the other. -/
theorem request_skips {skipped : List CanFrame}
    (refused : ∀ g ∈ skipped, ∀ q, ¬Acceptable broadcastId c.ecu pid g q) (bus : List Reception) :
    c.request broadcastId pid (skipped.map .frame ++ bus) =
      (c.request broadcastId pid bus).after (broadcasts broadcastId skipped) := by
  -- Frame by frame; only what it hands on grows.
  induction skipped with
  | nil => rfl
  | cons g skipped ih =>
    rw [List.forall_mem_cons] at refused
    rw [List.map_cons, List.cons_append, request_skip _ refused.1, ih refused.2,
      Outcome.after_after, ← broadcasts_append, List.singleton_append]

/-- Before the bus falls silent there is either no acceptable frame or a first one. -/
theorem bus_cases (broadcastId : Option UInt32) (ecu : Option UInt32) (pid : UInt8)
    (bus : List Reception) :
    ∃ skipped : List CanFrame, (∀ g ∈ skipped, ∀ q, ¬Acceptable broadcastId ecu pid g q) ∧
      (bus = skipped.map .frame ∨ (∃ rest, bus = skipped.map .frame ++ .silence :: rest) ∨
        ∃ f r rest, bus = skipped.map .frame ++ .frame f :: rest ∧
          Acceptable broadcastId ecu pid f r) := by
  -- The first reception that is no frame to pass over decides.
  induction bus with
  | nil => exact ⟨[], by simp, .inl rfl⟩
  | cons reception bus ih =>
    cases reception with
    | silence => exact ⟨[], by simp, .inr (.inl ⟨bus, rfl⟩)⟩
    | frame g =>
      by_cases accepted : ∃ r, Acceptable broadcastId ecu pid g r
      · obtain ⟨r, accepted⟩ := accepted
        exact ⟨[], by simp, .inr (.inr ⟨g, r, bus, rfl, accepted⟩)⟩
      · -- The frame is passed over, and what follows it decides.
        obtain ⟨skipped, refused, ends⟩ := ih
        refine ⟨g :: skipped, List.forall_mem_cons.mpr ⟨not_exists.mp accepted, refused⟩, ?_⟩
        rcases ends with rfl | ⟨rest, rfl⟩ | ⟨f, r, rest, rfl, accepted⟩
        · exact .inl rfl
        · exact .inr (.inl ⟨rest, rfl⟩)
        · exact .inr (.inr ⟨f, r, rest, rfl, accepted⟩)

/-- A bus on which nothing is acceptable before it falls silent has no first answer. -/
theorem not_firstAnswer {ecu : Option UInt32} {skipped : List CanFrame}
    (refused : ∀ g ∈ skipped, ∀ q, ¬Acceptable broadcastId ecu pid g q) {bus : List Reception}
    (ends : bus = [] ∨ ∃ rest, bus = .silence :: rest) (f : CanFrame) (r : Response)
    (rest : List Reception) :
    ¬FirstAnswer broadcastId ecu pid (skipped.map .frame ++ bus) f r rest := by
  rintro ⟨passed, delivered, -, accepted⟩
  -- The answer would be among the frames that were passed over.
  induction skipped generalizing passed with
  | nil =>
    rcases ends with rfl | ⟨after, rfl⟩ <;> cases passed <;> simp at delivered
  | cons g skipped ih =>
    rw [List.forall_mem_cons] at refused
    cases passed with
    | nil =>
      obtain ⟨rfl, -⟩ : g = f ∧ _ := by simpa using delivered
      exact refused.1 r accepted
    | cons first passed =>
      exact ih refused.2 passed (List.cons.inj delivered).2

/-- What a request leaves, and what it took from the bus to get there. -/
structure Takes (broadcastId : Option UInt32) (c : Client) (pid : UInt8) (bus : List Reception)
    (out : Outcome (Option Response)) : Prop where
  /-- It returns the content of the first acceptable answer. -/
  answered : ∀ r, out.result = some r ↔ ∃ f rest, FirstAnswer broadcastId c.ecu pid bus f r rest
  /-- It returns nothing when there is no such answer. -/
  unanswered : out.result = none ↔ ∀ f r rest, ¬FirstAnswer broadcastId c.ecu pid bus f r rest
  /-- It takes no frame after the answer, and sticks to its sender. -/
  stops : ∀ f r rest, FirstAnswer broadcastId c.ecu pid bus f r rest →
    out.rest = rest ∧ out.client = { c with primaryEcu := f.id }
  /-- It hands on the broadcasts among the frames it took, once each and in order. -/
  sinks : ∃ taken, bus = taken ++ out.rest ∧ out.sunk = broadcasts broadcastId (framesIn taken)
  /-- It changes the client only when there was no controller to stick to. -/
  sticks : out.client = c ∨ c.primaryEcu = 0 ∧ ∃ f r rest,
    FirstAnswer broadcastId c.ecu pid bus f r rest ∧ out.client = { c with primaryEcu := f.id }

/-- A request that met no acceptable frame. -/
theorem takes_nothing {skipped : List CanFrame}
    (refused : ∀ g ∈ skipped, ∀ q, ¬Acceptable broadcastId c.ecu pid g q)
    {ends rest : List Reception} (silent : ends = [] ∧ rest = [] ∨ ends = .silence :: rest) :
    Takes broadcastId c pid (skipped.map .frame ++ ends)
      ⟨none, c, broadcasts broadcastId skipped, rest⟩ := by
  have none : ∀ f r rest, ¬FirstAnswer broadcastId c.ecu pid (skipped.map .frame ++ ends) f r rest :=
    not_firstAnswer refused (silent.imp And.left fun same => ⟨rest, same⟩)
  refine ⟨fun r => ?_, iff_of_true rfl none, fun f r rest first => absurd first (none f r rest), ?_,
    .inl rfl⟩
  -- A result would be that of an answer, and there is none.
  · exact iff_of_false nofun fun ⟨f, rest, first⟩ => none f r rest first
  · rcases silent with ⟨rfl, rfl⟩ | rfl
    · exact ⟨skipped.map .frame, rfl, by rw [framesIn_map]⟩
    · refine ⟨skipped.map .frame ++ [.silence], by simp, ?_⟩
      have quiet : framesIn [.silence] = [] := rfl
      rw [framesIn, List.filterMap_append, ← framesIn, ← framesIn, framesIn_map, quiet, List.append_nil]

/-- A request that met an acceptable frame. -/
theorem takes_answer {skipped : List CanFrame}
    (refused : ∀ g ∈ skipped, ∀ q, ¬Acceptable broadcastId c.ecu pid g q) {f : CanFrame} {r : Response}
    (accepted : Acceptable broadcastId c.ecu pid f r) (rest : List Reception) :
    Takes broadcastId c pid (skipped.map .frame ++ .frame f :: rest)
      ⟨some r, { c with primaryEcu := f.id }, broadcasts broadcastId skipped, rest⟩ := by
  have first : FirstAnswer broadcastId c.ecu pid (skipped.map .frame ++ .frame f :: rest) f r rest :=
    ⟨skipped, rfl, refused, accepted⟩
  refine ⟨fun q => ?_, ?_, fun g q rest' other => ?_, ?_, ?_⟩
  · constructor
    · rintro ⟨⟩
      exact ⟨f, rest, first⟩
    · rintro ⟨g, rest', other⟩
      exact congrArg some (first.unique other).1
  · exact iff_of_false nofun fun none => none f r rest first
  · exact ⟨(first.unique other).2, by rw [first.same_frame other]⟩
  · -- The answer itself is no broadcast.
    refine ⟨skipped.map .frame ++ [.frame f], by simp, ?_⟩
    rw [framesIn, List.filterMap_append, ← framesIn, framesIn_map, broadcasts_append]
    simp [Reception.frame?, broadcasts, accepted.1]
  · by_cases fresh : c.primaryEcu = 0
    · exact .inr ⟨fresh, f, r, rest, first, rfl⟩
    · -- A controller that is stuck to is the only acceptable sender.
      have own : f.id = c.primaryEcu := accepted.2.2.2.2.2 _ (if_neg fresh)
      exact .inl (by rw [own])

/-- Whatever is on the bus, a request takes what it should and no more. -/
theorem request_takes (broadcastId : Option UInt32) (c : Client) (pid : UInt8) (bus : List Reception) :
    Takes broadcastId c pid bus (c.request broadcastId pid bus) := by
  obtain ⟨skipped, refused, ends⟩ := bus_cases broadcastId c.ecu pid bus
  have outcome (frames : List CanFrame) (result : Option Response) (client : Client)
      (rest : List Reception) :
      (Outcome.mk result client [] rest).after frames = ⟨result, client, frames, rest⟩ := by
    rw [Outcome.after, List.append_nil]
  -- The bus ends, falls silent, or brings an answer; the frames before that are passed over.
  rcases ends with rfl | ⟨rest, rfl⟩ | ⟨f, r, rest, rfl, accepted⟩
  · have request := request_skips refused []
    rw [List.append_nil] at request
    rw [request, Client.request, outcome]
    have takes := takes_nothing refused (.inl ⟨rfl, rfl⟩)
    rwa [List.append_nil] at takes
  · rw [request_skips refused, Client.request, outcome]
    exact takes_nothing refused (.inr rfl)
  · rw [request_skips refused, request_accept rest accepted, outcome]
    exact takes_answer refused accepted rest

variable (broadcastId)

/-- One request of a client: the parameter asked for, and what the bus brings until its deadline. -/
def ask (c : Client) (request : UInt8 × List Reception) : Client × List CanFrame :=
  let out := c.request broadcastId request.1 request.2
  (out.client, out.sunk)

/-- The requests that a walk makes, each with the bus that the ones before it left. -/
def walkAsks : Nat → UInt8 → Client → List Reception → List (UInt8 × List Reception)
  | 0, _, _, _ => []
  | remaining + 1, base, c, bus =>
    let got := c.request broadcastId base bus
    (base, bus) ::
      match got.result with
      | none => []
      | some r =>
        if 4 ≤ r.len ∧ nextBlockAdvertised r.data then
          walkAsks remaining (base + 0x20) got.client got.rest
        else []

/-- A walk is nothing but its requests, as far as the controller and the broadcasts are concerned. -/
theorem walk_asks (remaining block : Nat) (base : UInt8) (found : Finset UInt8) (c : Client)
    (bus : List Reception) :
    let walked := walk broadcastId remaining block base found c bus
    let asks := walkAsks broadcastId remaining base c bus
    walked.client.primaryEcu = (Run.final (ask broadcastId) c asks).primaryEcu ∧
      walked.sunk = Run.outputs (ask broadcastId) c asks := by
  induction remaining generalizing block base found c bus with
  | zero => exact ⟨rfl, rfl⟩
  | succ remaining ih =>
    intro walked asks
    simp only [walked, asks, walk, walkAsks, Run.final_cons, Run.outputs_cons]
    -- Every way to end the walk leaves the client and the broadcasts of the last request.
    cases got : (c.request broadcastId base bus).result with
    | none => by_cases first : block = 0 <;> simp [first, ask]
    | some r =>
      simp only
      by_cases short : r.len < 4
      · have ends : ¬(4 ≤ r.len ∧ nextBlockAdvertised r.data = true) := fun goes => by omega
        rw [if_pos short, if_neg ends]
        by_cases first : block = 0 <;> simp [first, ask]
      · rw [if_neg short]
        by_cases goesOn : nextBlockAdvertised r.data = true
        · rw [if_pos goesOn, if_pos ⟨not_lt.mp short, goesOn⟩]
          obtain ⟨ecu, sunk⟩ := ih (block + 1) (base + 0x20) _ (c.request broadcastId base bus).client
            (c.request broadcastId base bus).rest
          exact ⟨ecu, congrArg _ sunk⟩
        · rw [if_neg goesOn, if_neg fun goes => goesOn goes.2]
          simp [ask]

/-- A controller that a client sticks to stays until the next discovery. -/
theorem final_primaryEcu {c : Client} (known : c.primaryEcu ≠ 0) (asks : List (UInt8 × List Reception)) :
    (Run.final (ask broadcastId) c asks).primaryEcu = c.primaryEcu := by
  induction asks generalizing c with
  | nil => rfl
  | cons request asks ih =>
    have same : (ask broadcastId c request).1.primaryEcu = c.primaryEcu := by
      rcases (request_takes broadcastId c request.1 request.2).sticks with kept | ⟨fresh, -⟩
      · exact congrArg primaryEcu kept
      · exact absurd fresh known
    rw [Run.final_cons, ih (same ▸ known), same]

/-- A request is answered by the controller that the client sticks to. -/
theorem firstAnswer_sender {c : Client} (known : c.primaryEcu ≠ 0) {pid : UInt8}
    {bus rest : List Reception} {f : CanFrame} {r : Response}
    (first : FirstAnswer broadcastId c.ecu pid bus f r rest) : f.id = c.primaryEcu := by
  obtain ⟨-, -, -, accepted⟩ := first
  exact accepted.2.2.2.2.2 _ (if_neg known)

/-- All answers that a client takes in a row come from one controller. -/
theorem one_sender (c : Client) (asks : List (UInt8 × List Reception)) :
    ∃ e, ∀ past request later, asks = past ++ request :: later → ∀ f r rest,
      FirstAnswer broadcastId (Run.final (ask broadcastId) c past).ecu request.1 request.2 f r rest →
        f.id = e := by
  -- Once a controller is known it stays; until then there is no answer at all.
  have knownSender {c : Client} (known : c.primaryEcu ≠ 0) (past) {pid : UInt8}
      {bus rest : List Reception} {f : CanFrame} {r : Response}
      (first : FirstAnswer broadcastId (Run.final (ask broadcastId) c past).ecu pid bus f r rest) :
      f.id = c.primaryEcu := by
    have same := final_primaryEcu broadcastId known past
    exact (firstAnswer_sender broadcastId (same ▸ known) first).trans same
  induction asks generalizing c with
  | nil =>
    refine ⟨0, fun past request later split => ?_⟩
    simp at split
  | cons request asks ih =>
    obtain ⟨e, others⟩ := ih (ask broadcastId c request).1
    by_cases answered : ∃ f r rest, FirstAnswer broadcastId c.ecu request.1 request.2 f r rest
    · obtain ⟨f, r, rest, first⟩ := answered
      have nonzero : f.id ≠ 0 := by
        obtain ⟨-, -, -, -, response, -⟩ := first
        intro zero
        rw [zero] at response
        exact absurd response (by decide)
      have stuck : (ask broadcastId c request).1.primaryEcu = f.id :=
        congrArg primaryEcu ((request_takes broadcastId c request.1 request.2).stops f r rest first).2
      refine ⟨f.id, fun past next later split g q rest' taken => ?_⟩
      cases past with
      | nil =>
        obtain ⟨rfl, rfl⟩ := List.cons.inj split
        rw [first.same_frame taken]
      | cons _ past =>
        obtain ⟨rfl, rfl⟩ := List.cons.inj split
        exact (knownSender (stuck ▸ nonzero) past taken).trans stuck
    · refine ⟨e, fun past next later split g q rest' taken => ?_⟩
      cases past with
      | nil =>
        obtain ⟨rfl, rfl⟩ := List.cons.inj split
        exact absurd ⟨g, q, rest', taken⟩ answered
      | cons _ past =>
        obtain ⟨rfl, rfl⟩ := List.cons.inj split
        exact others past next later rfl g q rest' taken

/--
A request returns the first answer of the controller the client sticks to, or of any when there is
none, takes no frame after it, hands on the broadcasts on the way, and sticks to its sender. So from
one discovery to the next, the requests of the discovery itself included, one controller answers.
-/
theorem requests_answered_by_one (broadcastId : Option UInt32) (c : Client) :
    (∀ pid bus, Takes broadcastId c pid bus (c.request broadcastId pid bus)) ∧
    ∀ (bus : List Reception) (asks : List (UInt8 × List Reception)),
      let fresh := { c with primaryEcu := 0 }
      let walked := walkAsks broadcastId 7 pidSupported00 fresh bus
      (c.discover broadcastId bus).client.primaryEcu =
        (Run.final (ask broadcastId) fresh walked).primaryEcu ∧
      ∃ e, ∀ past request later, walked ++ asks = past ++ request :: later → ∀ f r rest,
        FirstAnswer broadcastId (Run.final (ask broadcastId) fresh past).ecu request.1 request.2 f r
          rest → f.id = e := by
  refine ⟨request_takes broadcastId c, ?_⟩
  intro bus asks fresh walked
  exact ⟨(walk_asks broadcastId 7 0 pidSupported00 ∅ fresh bus).1,
    one_sender broadcastId fresh (walked ++ asks)⟩

end Client

end CanProxy
