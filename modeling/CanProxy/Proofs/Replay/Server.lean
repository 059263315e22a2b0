import CanProxy.Proofs.Obd.Padding
import CanProxy.Proofs.Replay.Line
import CanProxy.Proofs.Replay.Respond
import CanProxy.Replay.Server

/-! A client of the replay tool gets what the recorded client got, and nothing that is not in the log. -/

namespace CanProxy.Replay

open Numeric

section File

/-- A line ends at the first newline. -/
theorem getlines_append {line : Text} (inside : '\n' ∉ line) (rest : Text) :
    getlines (line ++ '\n' :: rest) = line :: getlines rest := by
  -- Character by character; only a newline would end the line earlier.
  induction line with
  | nil => simp [getlines]
  | cons c line ih =>
    obtain ⟨other, inside⟩ := not_or.mp (mt List.mem_cons.mpr inside)
    rw [List.cons_append, getlines, if_neg (Ne.symm other), ih inside]

/-- A written integer consists of digits, behind a sign. -/
theorem mem_ofInt {n : ℤ} {width : Nat} {c : Char} (member : c ∈ Text.ofInt n width) :
    c = '-' ∨ Text.isDigit 10 c = true := by
  have digits (width magnitude : Nat) (member : c ∈ Text.pad width (Text.ofNat 10 magnitude)) :
      Text.isDigit 10 c = true :=
    (Text.spells_pad (by decide) (by decide) width magnitude).digits c member
  unfold Text.ofInt at member
  -- A negative number has a sign in front, and a positive one nothing.
  split at member
  · rcases List.mem_cons.mp member with sign | later
    · exact .inl sign
    · exact .inr (digits _ _ later)
  · exact .inr (digits _ _ member)

variable {interface : Text}

/-- A recorded line is one line. -/
theorem newline_notMem_recordLine (word : Word interface) (sec usec : ℤ) (f : CanFrame) :
    '\n' ∉ recordLine sec usec interface f := by
  intro member
  have digit {base : Nat} (digit : Text.isDigit base '\n' = true) : False := by cases digit
  have integer {n : ℤ} {width : Nat} (member : '\n' ∈ Text.ofInt n width) : False := by
    rcases mem_ofInt member with sign | decimal
    · exact absurd sign (by decide)
    · exact digit decimal
  simp only [recordLine, word.cString, List.mem_cons, List.mem_append] at member
  -- Each piece is digits, the name of the interface, or a separator of its own.
  rcases member with same | seconds | same | micros | same | same | name | same | id | same | bytes
  · exact absurd same (by decide)
  · exact integer seconds
  · exact absurd same (by decide)
  · exact integer micros
  · exact absurd same (by decide)
  · exact absurd same (by decide)
  · exact absurd (word.solid _ name).1 (by decide)
  · exact absurd same (by decide)
  · exact digit ((hexId_spells f.id).digits _ id)
  · exact absurd same (by decide)
  · exact digit (hexBytes_isDigit _ _ bytes)

/-- A recording has a line for each frame. -/
theorem getlines_recordFile (word : Word interface) (recorded : List Stamped) :
    getlines (recordFile interface recorded) =
      recorded.map fun x => recordLine x.sec x.usec interface x.frame := by
  -- Every recorded line ends with the newline that it does not contain.
  induction recorded with
  | nil => rfl
  | cons x recorded ih =>
    rw [recordFile, List.flatMap_cons, List.append_assoc, List.singleton_append, ← recordFile,
      getlines_append (newline_notMem_recordLine word x.sec x.usec x.frame), ih, List.map_cons]

/-- Two frames are the same on the bus, where nothing past the length counts. -/
structure SameFrame (f g : CanFrame) : Prop where
  id : f.id = g.id
  dlc : f.dlc = g.dlc
  data : ∀ i : Fin 8, i < g.dlc.toNat → getElem f.data i i.isLt = getElem g.data i i.isLt

/-- The frames of a log whose lines can be read back. -/
def written (log : List CanFrame) : List CanFrame := log.filter (·.dlc ≠ 0)

/-- A recording is read back frame by frame, whatever the memory it is read into holds. -/
theorem readLog_recordFile (word : Word interface) {recorded : List Stamped}
    (fits : ∀ x ∈ recorded, x.frame.dlc ≤ 8) (memory : Nat → Memory) :
    List.Forall₂ SameFrame ((readLog memory (recordFile interface recorded)).map Rec.frame)
      (written (recorded.map Stamped.frame)) := by
  rw [readLog, getlines_recordFile word]
  -- The induction is on the frames, wherever the numbering of the lines has come to.
  generalize 0 = k
  induction recorded generalizing k with
  | nil => exact .nil
  | cons x recorded ih =>
    have later := ih (fun y member => fits y (List.mem_cons_of_mem _ member)) (k + 1)
    rw [List.map_cons, List.zipIdx_cons, List.filterMap_cons]
    -- A frame of no data is written, and its line is dropped when it is read.
    by_cases empty : x.frame.dlc = 0
    · rw [parseLine_empty word x.sec x.usec empty, List.map_cons, written,
        List.filter_cons_of_neg (by simpa using empty)]
      exact later
    · obtain ⟨read, parsed, -, id, dlc, data⟩ := parseLine_recordLine word x.sec x.usec empty
        (fits x List.mem_cons_self) (memory k).b (memory k).r
      rw [parsed, List.map_cons, List.map_cons, written, List.filter_cons_of_pos (by simpa using empty)]
      exact .cons ⟨id, dlc, data⟩ later

end File

section Same

variable {f g : CanFrame} {pid : UInt8}

/-- The same frames are requests. -/
theorem SameFrame.isRequest (same : SameFrame f g) : isRequest f = isRequest g := by
  -- A request is told by its identifier and length alone.
  rw [Replay.isRequest, Replay.isRequest, same.id, same.dlc]

/-- The same frames of at least three bytes name the same parameter. -/
theorem SameFrame.named (same : SameFrame f g) (long : 3 ≤ g.dlc) :
    getElem f.data 2 Place.eight2 = getElem g.data 2 Place.eight2 := by
  -- The byte that names the parameter is within the length.
  have inside : 2 < g.dlc.toNat := UInt8.le_iff_toNat_le.mp long
  exact same.data 2 inside

/-- The same frames ask for a parameter. -/
theorem SameFrame.asksPid (same : SameFrame f g) : asksPid pid f = asksPid pid g := by
  rw [Replay.asksPid, Replay.asksPid, same.isRequest]
  -- A request is long enough to name its parameter; anything else asks for none.
  by_cases request : Replay.isRequest g = true
  · have long : 3 ≤ g.dlc := by simpa using (Bool.and_eq_true_iff.mp request).2
    rw [same.named long]
  · rw [Bool.not_eq_true] at request
    rw [request, Bool.false_and, Bool.false_and]

/-- The same frames answer for a parameter. -/
theorem SameFrame.namesPid (same : SameFrame f g) : namesPid pid f = namesPid pid g := by
  rw [Replay.namesPid, Replay.namesPid, same.id, same.dlc]
  by_cases long : 3 ≤ g.dlc
  · rw [same.named long]
  · simp [long]

/-- The same frames are parsed alike. -/
theorem SameFrame.parsed (same : SameFrame f g) {r : Response}
    (parsed : parseSingleFrame g.data g.dlc = some r) : parseSingleFrame f.data f.dlc = some r := by
  obtain ⟨-, -, declared, short, carried, -⟩ := parseSingleFrame_some parsed
  -- The parser looks at no byte past the length, and those before are the same.
  have first : declaredLength (bytesOf g.data 0) = r.len + 2 := by
    rw [declaredLength, bytesOf_getElem g.data Place.eight0, ← declared]
  rw [← parsed, same.dlc]
  refine parseSingleFrame_agree (fun i within => ?_) (by omega) (by omega)
  have inside : i < 8 := by omega
  rw [bytesOf_getElem f.data inside, bytesOf_getElem g.data inside]
  exact same.data ⟨i, inside⟩ (by dsimp only; omega)

variable {recs log : List CanFrame}

/-- The search for a response stops at the same place. -/
theorem findIdx?_same (same : List.Forall₂ SameFrame recs log) (n : Nat) :
    (recs.take n).findIdx? (namesPid pid) = (log.take n).findIdx? (namesPid pid) := by
  -- Frame by frame, as both searches ask the same of the same frames.
  induction same generalizing n with
  | nil => rfl
  | cons head _ ih =>
    cases n with
    | zero => rfl
    | succ n => rw [List.take_succ_cons, List.take_succ_cons, List.findIdx?_cons, List.findIdx?_cons,
        head.namesPid, ih]

/-- The same frames are paired in two logs of the same frames. -/
theorem storedAt_same (same : List.Forall₂ SameFrame recs log) : storedAt pid recs = storedAt pid log := by
  -- The pairing looks at a request and at the frames behind it, which are the same in both logs.
  induction same with
  | nil => rfl
  | cons head tail ih => rw [storedAt, storedAt, ih, head.asksPid, findIdx?_same tail]

/-- What is kept for a parameter is the same, read back or not. -/
theorem answers_same (same : List.Forall₂ SameFrame recs log) {g : CanFrame}
    (kept : answers log pid = some g) : ∃ f, answers recs pid = some f ∧ SameFrame f g := by
  -- What is kept is the frame at a place, and the places agree.
  rw [answers_eq] at kept
  obtain ⟨j, stored, read⟩ := Option.bind_eq_some_iff.mp kept
  obtain ⟨within, rfl⟩ := List.getElem?_eq_some_iff.mp read
  have inside : j < recs.length := by rwa [same.length_eq]
  refine ⟨recs[j], ?_, same.get inside within⟩
  rw [answers_eq, storedAt_same same, stored, Option.bind_some, List.getElem?_eq_getElem inside]

end Same

section Recorded

variable {broadcastId : Option UInt32}

theorem session_concat (steps : List Step) (step : Step) :
    session broadcastId (steps ++ [step]) = (session broadcastId steps).step broadcastId step := by
  rw [session, List.foldl_append, ← session]
  rfl

/-- The answer that a request accepts is the last frame in the recording when it returns. -/
theorem session_answered {steps : List Step} {pid : UInt8} {bus : List Reception} {r : Response}
    (accepted : ((session broadcastId steps).client.request broadcastId pid bus).result = some r) :
    ∃ f ecu, (session broadcastId (steps ++ [.request pid bus])).log.getLast? = some f ∧
      Acceptable broadcastId ecu pid f r := by
  rw [session_concat]
  generalize session broadcastId steps = s at accepted ⊢
  -- A request that is answered stops at the answer, so nothing is recorded behind it.
  rcases @Client.request_cases broadcastId s.client pid bus with ⟨none, -⟩ | ⟨f, r', rest, first⟩
  · cases accepted.symm.trans none
  · obtain ⟨sunk, taken⟩ := Client.request_firstAnswer first
    obtain ⟨skipped, rfl, -, answers⟩ := first
    obtain rfl : r' = r := by
      rw [taken] at accepted
      exact Option.some.inj accepted
    refine ⟨f, s.client.ecu, ?_, answers⟩
    simp only [Session.step, taken, framesOf_consumed]
    rw [← List.cons_append, ← List.append_assoc, List.getLast?_concat]

/-- A frame with a standard identifier is received as it was sent. -/
theorem receive_standard {f : CanFrame} (standard : f.id ≤ 0x7FF) (fits : f.dlc ≤ 8) : receive f = f := by
  -- The mask takes the low eleven bits, which is all that a standard identifier has.
  have id : f.id &&& 0x7FF = f.id := by
    have small : f.id.toNat < 2 ^ 11 := (UInt32.le_iff_toNat_le.mp standard).trans_lt (by decide)
    rw [← UInt32.toNat_inj, UInt32.toNat_and]
    exact (Nat.and_two_pow_sub_one_eq_mod _ 11).trans (Nat.mod_eq_of_lt small)
  rw [receive, id, if_neg (UInt8.not_lt.mpr fits)]

/-- An identifier that a controller responds under is a standard one. -/
theorem standard_of_response {id : UInt32} (response : isResponseId id = true) : id ≤ 0x7FF := by
  -- The eight response identifiers are all below the end of the standard ones.
  obtain ⟨-, high⟩ := Bool.and_eq_true_iff.mp response
  exact UInt32.le_trans (of_decide_eq_true high) (by decide)

/-- The tool has for a request what it keeps for the parameter. -/
theorem respond_requestFrame (answers : UInt8 → Option CanFrame) (pid : UInt8) :
    respond answers (requestFrame pid) = answers pid := by
  -- What the client sends is a request to the tool, and its third byte is the parameter.
  have request : isRequest { requestFrame pid with id := (requestFrame pid).id &&& 0x7FF } = true := by
    have functional : kRequestId &&& 0x7FF = 0x7DF := by decide
    simp [isRequest, isObdRequest, requestFrame, functional]
  rw [respond, if_pos request]
  rfl

end Recorded

/--
Recording a car and replaying it gives the value the car gave.

Let a request of a recorded session be answered, and its answer be the record that the pairing rule
singles out among the frames that can be read back. Then the tool, which has only the text of the
recording, sends an answer for the parameter from which any client accepts the very same response,
unless it sticks to another controller, and whatever frames that are no answer come before it.
-/
theorem replay_answers (broadcastId : Option UInt32) {before after : List Step} {pid : UInt8}
    {bus : List Reception} {r : Response}
    (accepted : ((session broadcastId before).client.request broadcastId pid bus).result = some r)
    {recorded : List Stamped}
    (all : recorded.map Stamped.frame = (session broadcastId (before ++ .request pid bus :: after)).log)
    (fits : ∀ x ∈ recorded, x.frame.dlc ≤ 8) {j : Nat}
    (paired : Paired pid (written (session broadcastId (before ++ .request pid bus :: after)).log) j)
    (own : (written (session broadcastId (before ++ .request pid bus :: after)).log)[j]? =
      (session broadcastId (before ++ [.request pid bus])).log.getLast?)
    {interface : Text} (word : Word interface) (memory : Nat → Memory) :
    ∃ answer,
      respond (answers ((readLog memory (recordFile interface recorded)).map Rec.frame))
        (requestFrame pid) = some answer ∧
      ∀ client : Client, client.primaryEcu = 0 ∨ client.primaryEcu = answer.id →
        ∀ (noise : List CanFrame) (rest : List Reception),
          (∀ f ∈ noise, ∀ q, ¬Acceptable broadcastId client.ecu pid f q) →
            (client.request broadcastId pid
              (noise.map .frame ++ .frame (receive answer) :: rest)).result = some r := by
  obtain ⟨g, ecu, last, acceptable⟩ := session_answered accepted
  rw [last, ← all] at own
  rw [← all] at paired
  -- The record is stored for the parameter, and read back as the same frame.
  have names := namesPid_of_acceptable acceptable
  have kept : answers (written (recorded.map Stamped.frame)) pid = some g := by
    rw [answers_eq, storedAt_eq_some.mpr ⟨⟨g, own, names⟩, paired⟩]
    exact own
  obtain ⟨f, found, same⟩ := answers_same (readLog_recordFile word fits memory) kept
  have short : g.dlc ≤ 8 := by
    obtain ⟨x, member, rfl⟩ := List.mem_map.mp (List.mem_filter.mp (List.mem_of_getElem? own)).1
    exact fits x member
  obtain ⟨notBroadcast, response, parsed, mode, named, -⟩ := acceptable
  have received : receive f = f :=
    receive_standard (by rw [same.id]; exact standard_of_response response) (by rw [same.dlc]; exact short)
  refine ⟨f, (respond_requestFrame _ pid).trans found, fun client free noise rest quiet => ?_⟩
  -- A client that is free to listen to the controller does not mind where the answer comes from.
  have sticks : ∀ e, client.ecu = some e → f.id = e := by
    intro e stuck
    rw [Client.ecu] at stuck
    split at stuck
    · cases stuck
    next known =>
      obtain rfl := Option.some.inj stuck
      exact (free.resolve_left known).symm
  have first : FirstAnswer broadcastId client.ecu pid (noise.map .frame ++ .frame (receive f) :: rest) f r
      rest :=
    ⟨noise, by rw [received], quiet, by rwa [same.id], by rwa [same.id], same.parsed parsed, mode, named, sticks⟩
  obtain ⟨sunk, taken⟩ := Client.request_firstAnswer first
  rw [taken]

/-- The speed of a recorded car is had from its recording, behind a frame of another kind. -/
theorem replay_answers_speed :
    let steps : List Step :=
      [.forgetEcu, .request 0x0D [.frame ⟨0x7E8, 8, #v[0x03, 0x41, 0x0D, 0x58, 0x00, 0x00, 0x00, 0x00]⟩]]
    let file := recordFile "vcan0".toList ((session none steps).log.map fun f => ⟨1, 2, f⟩)
    ∃ answer r, respond (answers ((readLog (fun _ => ⟨⟨.nan, 0, 0, Vector.replicate 8 0⟩, fun _ => 0⟩)
        file).map Rec.frame)) (requestFrame 0x0D) = some answer ∧
      ((Client.mk 0 ∅).request none 0x0D ([⟨0x123, 0, Vector.replicate 8 0⟩].map .frame ++
        [.frame (receive answer)])).result = some r ∧
      decode 0x0D r.data r.len = some (.finite 88) := by
  intro steps file
  have stored : storedAt 0x0D (written (session none steps).log) = some 1 := by decide
  have recorded : ((session none steps).log.map fun f => Stamped.mk 1 2 f).map Stamped.frame =
      (session none steps).log := by
    rw [List.map_map]
    exact List.map_id _
  obtain ⟨answer, sent, heard⟩ := @replay_answers none [.forgetEcu] [] 0x0D
    [.frame ⟨0x7E8, 8, #v[0x03, 0x41, 0x0D, 0x58, 0x00, 0x00, 0x00, 0x00]⟩]
    ⟨0x41, 0x0D, #v[0x58, 0x00, 0x00, 0x00, 0x00, 0x00], 1⟩ (by decide)
    ((session none steps).log.map fun f => ⟨1, 2, f⟩) recorded (by decide) 1
    (storedAt_eq_some.mp stored).2 (by decide) _ word_vcan0 (fun _ => ⟨⟨.nan, 0, 0, Vector.replicate 8 0⟩, fun _ => 0⟩)
  refine ⟨answer, _, sent, heard ⟨0, ∅⟩ (.inl rfl) _ _ ?_, by decide +kernel⟩
  intro f member q accepted
  obtain rfl := List.mem_singleton.mp member
  exact absurd accepted.2.1 (by decide)

/--
A broadcast that was regular is sent at the period it was recorded at.

Only the first and the last time count, and each period may be off by less than half a millisecond.
-/
theorem periodMs_regular (m : Machine) {first last : ℚ} (between : List ℚ) {period : ℤ}
    (positive : 1 ≤ period) (small : period < 2 ^ 62)
    (near : |(last - first) * 1000 - period * (between.length + 1)| < (between.length + 1) / 2)
    {periodOverride : ℤ} (observed : periodOverride < 0) :
    periodMs m periodOverride ((first :: (between ++ [last])).map .finite) = period := by
  obtain ⟨second, rest, split⟩ := List.exists_cons_of_ne_nil (List.append_ne_nil_of_right_ne_nil between
    (List.cons_ne_nil last []))
  have count : rest.length = between.length := by simpa using (congrArg List.length split).symm
  have final : (second :: rest).map Double.finite = (between.map Double.finite) ++ [.finite last] := by
    simp [← split]
  have wide : (0 : ℚ) < between.length + 1 := by positivity
  obtain ⟨low, high⟩ := abs_lt.mp near
  -- The mean is within half a millisecond of the period, so that rounding gives the period.
  set mean := (last - first) / (between.length + 1) * 1000 + 1 / 2 with mean_eq
  have floor : ⌊mean⌋ = period := by
    have same : (last - first) / (between.length + 1) * 1000 = (last - first) * 1000 / (between.length + 1) :=
      div_mul_eq_mul_div _ _ _
    rw [Int.floor_eq_iff, mean_eq, same]
    constructor
    · have : (period : ℚ) - 1 / 2 ≤ (last - first) * 1000 / (between.length + 1) := by
        rw [le_div_iff₀ wide]
        linarith
      linarith
    · have : (last - first) * 1000 / (between.length + 1) < period + 1 / 2 := by
        rw [div_lt_iff₀ wide]
        linarith
      linarith
  have nonneg : 0 ≤ mean := (Int.floor_nonneg.mp (by omega))
  have truncated : truncate mean = period := by rw [truncate_of_nonneg nonneg, floor]
  have shape : (first :: (between ++ [last])).map Double.finite =
      .finite first :: .finite second :: rest.map Double.finite := by rw [split]; rfl
  have ending : (Double.finite second :: rest.map .finite).getLast (List.cons_ne_nil _ _) = .finite last := by
    simp only [← List.map_cons, final, List.getLast_append_singleton]
  rw [shape, periodMs]
  dsimp only
  have counted : (Double.ofInt ((rest.map Double.finite).length + 1)) = .finite (between.length + 1) := by
    rw [List.length_map, count, Double.ofInt]
    push_cast
    rfl
  rw [ending, counted, if_pos observed, Double.neg_finite, Double.finite_add, Double.finite_div _ wide.ne',
    ← sub_eq_add_neg]
  have value : Double.finite ((last - first) / (between.length + 1)) * Double.ofInt 1000 +
      Double.finite (1 / 2) = .finite mean := rfl
  rw [value, m.toLong_toInt (by omega) (by omega), truncated, if_neg (by omega)]

section Served

variable {m : Machine} {periodOverride : ℤ}

/-- A frame that the tool may send for some records: an answer, or a broadcast. -/
def Sends (m : Machine) (periodOverride : ℤ) (recs : List Rec) (f : CanFrame) : Prop :=
  (∃ request, respond (answers (recs.map Rec.frame)) request = some f) ∨
    ∃ period, (f, period) ∈ broadcasts m periodOverride recs

/-- A line is read into at most eight bytes. -/
theorem readLog_dlc {memory : Nat → Memory} {file : Text} {r : Rec} (read : r ∈ readLog memory file) :
    r.dlc ≤ 8 := by
  obtain ⟨line, -, parsed⟩ := List.mem_filterMap.mp read
  obtain ⟨conversions, -, rfl⟩ := Option.map_eq_some_iff.mp parsed
  dsimp only
  split
  · decide
  next few =>
    rw [UInt8.le_iff_toNat_le, UInt8.toNat_ofNat']
    exact (Nat.mod_le _ _).trans (not_lt.mp few)

/-- What the tool sends is the frame of a record, and a response among it is what is kept for its parameter. -/
theorem Sends.traced {recs : List Rec} {g : CanFrame} (sends : Sends m periodOverride recs g) :
    (∃ r ∈ recs, r.frame = g) ∧
      (isObdResponse g.id = true → answers (recs.map Rec.frame) (getElem g.data 2 Place.eight2) = some g) := by
  rcases sends with ⟨request, responded⟩ | ⟨period, repeated⟩
  · unfold respond at responded
    split at responded
    · -- What is kept for the parameter that is asked for names that parameter.
      have ⟨j, stored, read⟩ := Option.bind_eq_some_iff.mp ((answers_eq _ _).symm.trans responded)
      obtain ⟨⟨g', again, names⟩, -⟩ := storedAt_eq_some.mp stored
      obtain rfl := Option.some.inj (read.symm.trans again)
      have same : getElem g.data 2 Place.eight2 = getElem request.data 2 Place.eight2 := by
        simpa using (Bool.and_eq_true_iff.mp names).2
      exact ⟨List.mem_map.mp (List.mem_of_getElem? read), fun _ => by rw [same]; exact responded⟩
    · cases responded
  · obtain ⟨id, -, sent⟩ := List.mem_filterMap.mp repeated
    obtain ⟨r, last, same⟩ := Option.map_eq_some_iff.mp sent
    obtain ⟨rfl, -⟩ := Prod.mk.inj same
    obtain ⟨member, chosen⟩ := List.mem_filter.mp (List.mem_of_getLast? last)
    refine ⟨⟨r, member, rfl⟩, fun response => ?_⟩
    have other : isObdResponse r.id = false := by
      have broadcast := (Bool.and_eq_true_iff.mp chosen).1
      simpa using (Bool.and_eq_true_iff.mp broadcast).2
    cases other.symm.trans response

/--
What a client gets from the replay tool is fixed by the log, whatever else happens.

Let the file be any text whose identifiers are standard ones, and let everything on the bus be frames
the tool sends: answers to requests of this client or of others, in time, late or again, and broadcasts
in between. Then an answer that a client accepts for a parameter is the one record the log has for it,
in a positive response that follows a request for that parameter by at most fifteen records.
-/
theorem replay_fixed (m : Machine) (periodOverride : ℤ) (broadcastId : Option UInt32)
    (memory : Nat → Memory) (file : Text)
    (standard : ∀ r ∈ readLog memory file, r.id ≤ 0x7FF) (client : Client) {pid : UInt8}
    {bus : List Reception}
    (served : ∀ f, .frame f ∈ bus →
      ∃ g, Sends m periodOverride (readLog memory file) g ∧ receive g = f) {r : Response}
    (got : (client.request broadcastId pid bus).result = some r) :
    ∃ i j request answer, (readLog memory file)[i]? = some request ∧ (readLog memory file)[j]? = some answer ∧
      i < j ∧ j ≤ i + 15 ∧ asksPid pid request.frame = true ∧ namesPid pid answer.frame = true ∧
      answers ((readLog memory file).map Rec.frame) pid = some answer.frame ∧
      parseSingleFrame answer.data answer.dlc = some r ∧ r.mode = 0x41 ∧ r.pid = pid := by
  rcases @Client.request_cases broadcastId client pid bus with ⟨none, -⟩ | ⟨f, r', rest, first⟩
  · cases got.symm.trans none
  obtain ⟨sunk, taken⟩ := Client.request_firstAnswer first
  obtain ⟨skipped, rfl, -, acceptable⟩ := first
  obtain rfl : r' = r := by
    rw [taken] at got
    exact Option.some.inj got
  obtain ⟨g, sends, rfl⟩ := served f (by simp)
  obtain ⟨⟨answer, member, rfl⟩, responds⟩ := sends.traced
  rw [receive_standard (standard answer member) (readLog_dlc member)] at acceptable
  -- The answer is a response that names the parameter, so it is what is kept for it.
  have names := namesPid_of_acceptable acceptable
  obtain ⟨-, response, parsed, positive, own, -⟩ := acceptable
  have named : getElem answer.frame.data 2 Place.eight2 = pid := by
    simpa using (Bool.and_eq_true_iff.mp names).2
  have kept := responds response
  rw [named, answers_eq] at kept
  obtain ⟨j, stored, read⟩ := Option.bind_eq_some_iff.mp kept
  obtain ⟨i, ⟨asking, asked, asks⟩, before, within, -⟩ := (storedAt_eq_some.mp stored).2.1
  rw [List.getElem?_map] at asked read
  obtain ⟨request, found, rfl⟩ := Option.map_eq_some_iff.mp asked
  obtain ⟨again, heard, same⟩ := Option.map_eq_some_iff.mp read
  refine ⟨i, j, request, again, found, heard, before, within, asks, ?_, ?_, ?_, positive, own⟩
  · rwa [same]
  · rw [answers_eq, kept, same]
  · rw [← same] at parsed
    exact parsed

/-- The speed in a log is the speed that a client gets, a broadcast of the log before it or not. -/
theorem replay_fixed_speed :
    let memory : Nat → Memory := fun _ => ⟨⟨.nan, 0, 0, Vector.replicate 8 0⟩, fun _ => 0⟩
    let file := "(1.0) can0 123#01\n(1.1) can0 7DF#02010D\n(1.2) can0 7E8#03410D58\n".toList
    ∃ answer r, answers ((readLog memory file).map Rec.frame) 0x0D = some answer ∧
      parseSingleFrame answer.data answer.dlc = some r ∧ r.data = #v[0x58, 0, 0, 0, 0, 0] := by
  intro memory file
  have served : ∀ f, .frame f ∈ [.frame ⟨0x123, 1, #v[0x01, 0, 0, 0, 0, 0, 0, 0]⟩,
      Reception.frame ⟨0x7E8, 4, #v[0x03, 0x41, 0x0D, 0x58, 0, 0, 0, 0]⟩] →
        ∃ g, Sends .indefinite 100 (readLog memory file) g ∧ receive g = f := by
    intro f member
    rcases List.mem_pair.mp member with same | same <;> obtain rfl := Reception.frame.inj same
    · exact ⟨⟨0x123, 1, #v[0x01, 0, 0, 0, 0, 0, 0, 0]⟩, .inr ⟨100, by decide +kernel⟩, by decide⟩
    · exact ⟨⟨0x7E8, 4, #v[0x03, 0x41, 0x0D, 0x58, 0, 0, 0, 0]⟩, .inl ⟨requestFrame 0x0D, by decide +kernel⟩,
        by decide⟩
  obtain ⟨i, j, request, answer, -, -, -, -, -, -, kept, parsed, -⟩ :=
    @replay_fixed .indefinite 100 none memory file (by decide +kernel) ⟨0, ∅⟩ 0x0D _ served
      ⟨0x41, 0x0D, #v[0x58, 0, 0, 0, 0, 0], 1⟩ (by decide)
  exact ⟨answer.frame, _, kept, parsed, rfl⟩

end Served

end CanProxy.Replay
